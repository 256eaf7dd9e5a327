import InvoiceOps.Auth.Authorization
import InvoiceOps.Lib.Address
import InvoiceOps.Web.Renewals

/-! The way of a request from the browser to the API: the proxy of the web application
(`web/src/app/api/backend/[...path]/route.ts`) puts the identity of the session on it, and the API decides whether to let it
through. Nothing the browser sends is part of that identity, and a request that changes something comes from the pages of
the application. -/

namespace InvoiceOps

open StateMachine

/-- The environment of the web process, with the protocol and the origin of an address, and the path of the API. -/
structure WebEnvironment where
  authMode : Option String
  environment : Option String
  publicOrigin : Option String
  parseUrl : String → Option (String × String)
  backend : List (List Char)

/-- A request of the browser; header names are in lower case. -/
structure BrowserRequest where
  method : String
  url : String
  path : List String
  search : String
  headers : List (String × String)
  body : Option (List UInt8)

structure UpstreamRequest where
  method : String
  target : Address.Target
  search : String
  headers : List (String × String)
  body : Option (List UInt8)
deriving DecidableEq

/-- The answer of the proxy itself, the request it sends on, or an exception. -/
inductive ProxyReply
  | respond (status : ℕ) (detail : Option String)
  | forward (request : UpstreamRequest)
  | raised
deriving DecidableEq

/-- `authMode`; nothing where it throws. -/
def WebEnvironment.mode (env : WebEnvironment) : Option AuthMode :=
  let mode := env.authMode.getD "development"
  if mode = "oidc" then some .oidc
  else if mode = "development" ∧ env.environment ≠ some "production" then some .development
  else none

/-- `/^(localhost|127\.0\.0\.1)(:\d+)?$/` -/
def localHost (host : String) : Bool :=
  ["localhost", "127.0.0.1"].any fun name =>
    name.toList.isPrefixOf host.toList &&
      match host.toList.drop name.length with
      | [] => true
      | ':' :: port => !port.isEmpty && port.all Char.isDigit
      | _ => false

/-- `publicOrigin`; nothing where it throws. -/
def WebEnvironment.originOf (env : WebEnvironment) (request : BrowserRequest) : Option String :=
  match env.publicOrigin.filter (· ≠ "") with
  | some configured =>
    (env.parseUrl configured).bind fun url =>
      if env.environment = some "production" ∧ url.1 ≠ "https:" then none else some url.2
  | none =>
    if env.environment = some "production" then none
    else
      let host := (headerOf request.headers "host").getD ""
      if localHost host = true then some ("http://" ++ host) else (env.parseUrl request.url).map Prod.snd

def WebEnvironment.sameOriginSubmission (env : WebEnvironment) (request : BrowserRequest) : Option Bool :=
  let origin := headerOf request.headers "origin"
  let fetchSite := headerOf request.headers "sec-fetch-site"
  match origin.filter fun origin => origin ≠ "" ∧ origin ≠ "null" with
  | some origin => (env.originOf request).map fun own => decide (origin = own)
  | none => some (decide (fetchSite = some "same-origin" ∨ origin = none ∧ fetchSite = none))

/-- What a development session is read with: the signature of a body, the bytes of a signature, and the role of a body with
the time it expires. -/
structure DevelopmentCodec where
  hmac : List Char → List UInt8
  fromBase64url : List Char → List UInt8
  payload : List Char → Option (String × Option ℚ)

def syntheticSession (role : Role) : AppSession where
  subject := "synthetic-" ++ role.value
  roles := [role]
  accessToken := none
  refreshToken := none
  expiresAt := none

def readDevelopmentSession (codec : DevelopmentCodec) (value : String) (now : ℚ) : Option AppSession :=
  match value.toList.splitOn '.' with
  | body :: signature :: _ =>
    if body = [] ∨ signature = [] ∨ 1024 < value.length then none
    else if codec.fromBase64url signature ≠ codec.hmac body then none
    else
      match codec.payload body with
      | none => none
      | some (role, expires) =>
        (Role.ofValue role).bind fun role => if expires.any (· < now) = true then none else some (syntheticSession role)
  | _ => none

def requestHeaders : List String := ["accept", "content-type", "last-event-id", "idempotency-key", "if-match"]

def mutations : List String := ["POST", "PUT", "PATCH", "DELETE"]

def httpSpace (c : Char) : Bool := decide (c ∈ ['\t', '\n', '\r', ' '])

/-- `headers.set`: the ends of the value are trimmed, and a value that no header can have is refused. -/
def setHeader (header : String × String) : Option (String × String) :=
  let cs := Text.stripBy httpSpace header.2.toList
  if cs.all (fun c => c.toNat < 256 && c.toNat != 0 && c != '\n' && c != '\r') = true then
    some (header.1, String.ofList cs)
  else none

/-- The headers that say who asks. -/
def identityHeaders (session : AppSession) : AuthMode → List (String × String)
  | .oidc => [("authorization", "Bearer " ++ session.accessToken.getD "undefined")]
  | .development =>
    [("x-actor-id", session.subject), ("x-reviewer-id", session.subject),
      ("x-dev-roles", String.ofList ([','].intercalate (session.roles.map fun role => role.value.toList)))]

def passedHeaders (headers : List (String × String)) : List (String × String) :=
  requestHeaders.filterMap fun name => (givenHeader headers name).map (name, ·)

/-- The request for the API, with a session. -/
def WebEnvironment.forward (env : WebEnvironment) (request : BrowserRequest) (session : AppSession) : ProxyReply :=
  match env.mode with
  | none => .raised
  | some mode =>
    match (passedHeaders request.headers ++ identityHeaders session mode).mapM setHeader with
    | none => .raised
    | some headers =>
      .forward {
        method := request.method
        target := Address.resolve env.backend
          (['/'].intercalate (request.path.map fun segment => Address.encodeComponent segment.toList))
        search := request.search
        headers := headers
        body := if request.method = "GET" ∨ request.method = "HEAD" then none else request.body }

/-- The proxy after the check of the origin; `resolved` is the answer of `resolveSession`, nothing where it throws. -/
def WebEnvironment.serve (env : WebEnvironment) (request : BrowserRequest) (resolved : Option (Option AppSession)) :
    ProxyReply :=
  if request.path = [] ∨ request.path.any (fun segment => segment = ".." || segment.toList.contains '/') = true then
    .respond 404 none
  else
    match resolved with
    | none => .respond 503 (some "Session unavailable")
    | some none => .respond 401 (some "Session required")
    | some (some session) => env.forward request session

def WebEnvironment.proxy (env : WebEnvironment) (request : BrowserRequest) (resolved : Option (Option AppSession)) :
    ProxyReply :=
  if request.method ∈ mutations then
    match env.sameOriginSubmission request with
    | none => .raised
    | some false => .respond 403 (some "Cross-origin mutation denied")
    | some true => env.serve request resolved
  else env.serve request resolved

/-- What the API sees; `route` finds the template for a method and a target. -/
def UpstreamRequest.received (route : String → Address.Target → String) (up : UpstreamRequest) : ApiRequest :=
  ⟨up.method, route up.method up.target, up.headers⟩

variable {env : WebEnvironment} {request : BrowserRequest} {session : AppSession} {up : UpstreamRequest} {mode : AuthMode}

/-- What it takes for a request to be sent on, and what is sent. -/
structure Forwarded (env : WebEnvironment) (request : BrowserRequest) (session : AppSession) (mode : AuthMode)
    (up : UpstreamRequest) : Prop where
  settled : env.mode = some mode
  origin : request.method ∈ mutations → env.sameOriginSubmission request = some true
  path : request.path ≠ [] ∧ ∀ segment ∈ request.path, segment ≠ ".." ∧ '/' ∉ segment.toList
  method : up.method = request.method
  target : up.target = Address.resolve env.backend
    (['/'].intercalate (request.path.map fun segment => Address.encodeComponent segment.toList))
  headers : (passedHeaders request.headers ++ identityHeaders session mode).mapM setHeader = some up.headers

theorem forwarded_of_proxy {resolved : Option (Option AppSession)} (h : env.proxy request resolved = .forward up) :
    ∃ session mode, resolved = some (some session) ∧ Forwarded env request session mode up := by
  have hserve : env.serve request resolved = .forward up ∧
      (request.method ∈ mutations → env.sameOriginSubmission request = some true) := by
    unfold WebEnvironment.proxy at h
    split_ifs at h with hmutation
    · split at h
      · cases h
      · cases h
      · rename_i hsame
        exact ⟨h, fun _ => hsame⟩
    · exact ⟨h, fun hm => absurd hm hmutation⟩
  obtain ⟨hserve, horigin⟩ := hserve
  unfold WebEnvironment.serve at hserve
  split_ifs at hserve with hpath
  split at hserve
  · cases hserve
  · cases hserve
  · rename_i session
    unfold WebEnvironment.forward at hserve
    split at hserve
    · cases hserve
    · rename_i mode hmode
      split at hserve
      · cases hserve
      · rename_i headers hheaders
        obtain rfl := ProxyReply.forward.inj hserve
        obtain ⟨hne, hsegments⟩ := not_or.1 hpath
        refine ⟨session, mode, rfl, hmode, horigin, ⟨hne, fun segment hsegment => ?_⟩, rfl, rfl, hheaders⟩
        simp only [List.any_eq_true, not_exists, not_and, Bool.or_eq_true, decide_eq_true_iff, not_or,
          List.contains_iff_mem] at hsegments
        exact hsegments segment hsegment

theorem setHeader_name {header header' : String × String} (h : setHeader header = some header') : header'.1 = header.1 := by
  unfold setHeader at h
  simp only at h
  split_ifs at h
  rw [← Option.some.inj h]

theorem passedHeaders_name {headers : List (String × String)} {header : String × String}
    (h : header ∈ passedHeaders headers) : header.1 ∈ requestHeaders := by
  obtain ⟨name, hname, hgiven⟩ := List.mem_filterMap.1 h
  obtain ⟨value, -, rfl⟩ := Option.map_eq_some_iff.1 hgiven
  exact hname

theorem headerOf_append {headers headers' : List (String × String)} {name : String}
    (h : ∀ header ∈ headers, header.1 ≠ name) : headerOf (headers ++ headers') name = headerOf headers' name := by
  have hnone : headers.find? (·.1 = name) = none := by
    rw [List.find?_eq_none]
    exact fun header hmem heq => h header hmem (of_decide_eq_true heq)
  rw [headerOf, List.find?_append, hnone, Option.none_or, headerOf]

/-- A header that says who asks is one the proxy has set itself. -/
theorem Forwarded.identity (h : Forwarded env request session mode up) :
    ∃ headers, (identityHeaders session mode).mapM setHeader = some headers ∧
      ∀ name ∉ requestHeaders, headerOf up.headers name = headerOf headers name := by
  have hall := h.headers
  rw [List.mapM_append] at hall
  simp only [Option.bind_eq_bind, Option.bind_eq_some_iff, Option.pure_def, Option.some.injEq] at hall
  obtain ⟨passed, hpassed, headers, hheaders, hup⟩ := hall
  refine ⟨headers, hheaders, fun name hname => ?_⟩
  rw [← hup]
  refine headerOf_append fun header hheader heq => hname ?_
  obtain ⟨given, hgiven, hset⟩ := Lists.exists_of_forall₂_mem (Lists.mapM_eq_some_iff.1 hpassed) hheader
  rw [← heq, setHeader_name hset]
  exact passedHeaders_name hgiven

theorem stripBy_append {q : Char → Bool} (cs : List Char) {ts : List Char} (h : ∀ c ∈ ts, q c = true) :
    Text.stripBy q (cs ++ ts) = Text.stripBy q cs := by
  have hts : ts.dropWhile q = [] := List.dropWhile_eq_nil_iff.2 h
  rw [Text.stripBy, List.dropWhile_append]
  split_ifs with hempty
  · rw [hts, Text.stripBy, List.isEmpty_iff.1 hempty]
  · rw [List.reverse_append, List.dropWhile_append_of_pos fun c hc => h c (List.mem_reverse.1 hc), Text.stripBy]

theorem isSpace_of_httpSpace {c : Char} (h : httpSpace c = true) : Text.isSpace c = true := by
  have hmem := of_decide_eq_true h
  simp only [List.mem_cons, List.not_mem_nil, or_false] at hmem
  obtain rfl | rfl | rfl | rfl := hmem <;> decide

/-- What is left of `Bearer ` and a token once its ends are trimmed. -/
theorem stripBy_bearer (ts : List Char) :
    (∀ c ∈ ts, httpSpace c = true) ∧ Text.stripBy httpSpace ("Bearer ".toList ++ ts) = "Bearer".toList ∨
      ∃ rs, Text.stripBy httpSpace ("Bearer ".toList ++ ts) = "Bearer ".toList ++ rs ∧
        Text.stripBy Text.isSpace rs = Text.stripBy Text.isSpace ts := by
  have hstart : Text.stripBy httpSpace ("Bearer ".toList ++ ts) =
      ((ts.reverse ++ "Bearer ".toList.reverse).dropWhile httpSpace).reverse := by
    rw [← List.reverse_append]
    rfl
  rw [hstart, List.dropWhile_append]
  split_ifs with hempty
  · left
    have hall := List.dropWhile_eq_nil_iff.1 (List.isEmpty_iff.1 hempty)
    exact ⟨fun c hc => hall c (List.mem_reverse.2 hc), by decide⟩
  · right
    refine ⟨(ts.reverse.dropWhile httpSpace).reverse, by rw [List.reverse_append, List.reverse_reverse], ?_⟩
    have hsplit : ts = (ts.reverse.dropWhile httpSpace).reverse ++ (ts.reverse.takeWhile httpSpace).reverse := by
      rw [← List.reverse_append, List.takeWhile_append_dropWhile, List.reverse_reverse]
    conv_rhs => rw [hsplit]
    refine (stripBy_append _ fun c hc => ?_).symm
    exact isSpace_of_httpSpace (List.mem_takeWhile_imp (List.mem_reverse.1 hc))

theorem bearerToken_append (rs : List Char) : bearerToken (String.ofList ("Bearer ".toList ++ rs)) =
    if Text.strip (String.ofList rs) = "" then none else some (Text.strip (String.ofList rs)) := by
  have hdrop : ("Bearer ".toList ++ rs).drop 7 = rs := List.drop_left' (by decide)
  have hinit : "Bearer ".toList.isPrefixOf ("Bearer ".toList ++ rs) = true :=
    List.isPrefixOf_iff_prefix.2 (List.prefix_append ..)
  simp only [bearerToken, String.toList_ofList, hdrop, hinit, true_and]
  exact ite_not ..

/-- The API reads the token of the session from the header the proxy sets. -/
theorem bearerToken_set {token : String} {header : String × String}
    (h : setHeader ("authorization", "Bearer " ++ token) = some header) :
    header.1 = "authorization" ∧
      bearerToken header.2 = if Text.strip token = "" then none else some (Text.strip token) := by
  refine ⟨setHeader_name h, ?_⟩
  unfold setHeader at h
  simp only [String.toList_append] at h
  split_ifs at h
  obtain rfl := Option.some.inj h
  obtain ⟨hblank, hvalue⟩ | ⟨rs, hvalue, hrs⟩ := stripBy_bearer token.toList
  · have htoken : Text.strip token = "" := by
      have hnil := stripBy_append [] fun c hc => isSpace_of_httpSpace (hblank c hc)
      rw [List.nil_append] at hnil
      rw [Text.strip, hnil]
      rfl
    rw [hvalue, if_pos htoken]
    decide
  · have hstrip : Text.strip (String.ofList rs) = Text.strip token := by rw [Text.strip, String.toList_ofList, hrs, Text.strip]
    rw [hvalue, bearerToken_append, hstrip]

/-- Whom the API takes the bearer of a session for. -/
def AppSession.principal (session : AppSession) (verify : String → Except AuthError Principal) :
    AuthMode → Except HttpError Principal
  | .development => .ok ⟨session.subject, session.roles.toFinset⟩
  | .oidc =>
    let token := Text.strip (session.accessToken.getD "undefined")
    if token = "" then .error tokenRequired else verified (verify token)

theorem synthetic_of_read {codec : DevelopmentCodec} {value : String} {now : ℚ}
    (h : readDevelopmentSession codec value now = some session) : ∃ role, session = syntheticSession role := by
  unfold readDevelopmentSession at h
  split at h
  · split_ifs at h
    split at h
    · cases h
    · obtain ⟨role, -, hrole⟩ := Option.bind_eq_some_iff.1 h
      split_ifs at hrole
      exact ⟨role, (Option.some.inj hrole).symm⟩
  · cases h

/-- The headers of a synthetic session are read as its subject and its role. -/
theorem synthetic_headers (role : Role) : ∃ subject : String,
    (identityHeaders (syntheticSession role) .development).mapM setHeader =
      some [("x-actor-id", subject), ("x-reviewer-id", subject), ("x-dev-roles", role.value)] ∧
    Text.strip subject = subject ∧ subject ≠ "" ∧ subject.length ≤ 100 ∧ subject = (syntheticSession role).subject ∧
    developmentRoles role.value = some {role} := by
  cases role with
  | operator => exact ⟨"synthetic-operator", by decide +kernel⟩
  | reviewer => exact ⟨"synthetic-reviewer", by decide +kernel⟩
  | auditor => exact ⟨"synthetic-auditor", by decide +kernel⟩
  | admin => exact ⟨"synthetic-admin", by decide +kernel⟩

theorem Forwarded.principal (h : Forwarded env request session mode up)
    (hdev : mode = .development → ∃ role, session = syntheticSession role) (verify : String → Except AuthError Principal)
    (route : String → Address.Target → String) :
    resolvePrincipal mode verify (up.received route) = session.principal verify mode := by
  obtain ⟨headers, hheaders, hsame⟩ := h.identity
  cases mode with
  | development =>
    obtain ⟨role, rfl⟩ := hdev rfl
    obtain ⟨subject, hset, hstrip, hne, hshort, hsubject, hroles⟩ := synthetic_headers role
    obtain rfl := Option.some.inj (hset.symm.trans hheaders)
    have hreviewer : headerOf up.headers "x-reviewer-id" = some subject := hsame _ (by decide)
    have hactor : headerOf up.headers "x-actor-id" = some subject := hsame _ (by decide)
    have hdevRoles : headerOf up.headers "x-dev-roles" = some role.value := hsame _ (by decide)
    have hgiven : (some subject).filter (fun value => decide (value ≠ "")) = some subject := Option.filter_some_pos (by simpa)
    have hnamed : developmentSubject up.headers = subject := by
      rw [developmentSubject, givenHeader, hreviewer, hgiven, Option.some_or, Option.getD_some, hstrip]
    have hvalid : ¬(False ∨ 100 < subject.length) := not_or.2 ⟨not_false, not_lt.2 hshort⟩
    simp only [resolvePrincipal, UpstreamRequest.received, blankHeader, hreviewer, hactor, hdevRoles, Option.getD_some,
      hstrip, hne, decide_false, Bool.false_eq_true, and_false, if_false, hnamed, hroles,
      AppSession.principal, ← hsubject]
    exact if_neg hvalid
  | oidc =>
    obtain ⟨header, hset, rfl⟩ : ∃ header,
        setHeader ("authorization", "Bearer " ++ session.accessToken.getD "undefined") = some header ∧ [header] = headers := by
      simp only [identityHeaders, List.mapM_cons, List.mapM_nil, Option.bind_eq_bind, Option.bind_eq_some_iff,
        Option.pure_def, Option.bind_some, Option.some.injEq] at hheaders
      exact hheaders
    obtain ⟨hname, htoken⟩ := bearerToken_set hset
    have hauthorization : headerOf up.headers "authorization" = some header.2 := by
      rw [hsame _ (by decide), headerOf, List.find?_cons_of_pos (by simpa using hname)]
      rfl
    simp only [resolvePrincipal, UpstreamRequest.received, hauthorization, Option.getD_some, htoken, AppSession.principal]
    split_ifs <;> rfl

/-- Development headers say nothing to an API that wants tokens. -/
theorem Forwarded.mismatch (h : Forwarded env request session .development up)
    (verify : String → Except AuthError Principal) (route : String → Address.Target → String) :
    resolvePrincipal .oidc verify (up.received route) = .error tokenRequired := by
  obtain ⟨headers, hheaders, hsame⟩ := h.identity
  have hnames : ∀ header ∈ headers, header.1 ≠ "authorization" := by
    intro header hheader
    obtain ⟨given, hgiven, hset⟩ := Lists.exists_of_forall₂_mem (Lists.mapM_eq_some_iff.1 hheaders) hheader
    rw [setHeader_name hset]
    simp only [identityHeaders, List.mem_cons, List.not_mem_nil, or_false] at hgiven
    obtain rfl | rfl | rfl := hgiven <;> simp
  have hauthorization : headerOf up.headers "authorization" = none := by
    have hnone := @headerOf_append headers [] "authorization" hnames
    rw [hsame _ (by decide), ← List.append_nil headers, hnone]
    rfl
  have hbearer : bearerToken ((none : Option String).getD "") = none := by decide
  simp only [resolvePrincipal, UpstreamRequest.received, hauthorization, hbearer]

/-- Whatever the browser sends, the API takes a request of the proxy for the principal of its session, and for nobody else;
a development session is nobody to an API that wants tokens. -/
theorem proxied_principal {resolved : Option (Option AppSession)} (h : env.proxy request resolved = .forward up)
    (hdev : env.mode = some .development → ∃ codec value now, resolved = some (readDevelopmentSession codec value now)) :
    ∃ session mode, resolved = some (some session) ∧ env.mode = some mode ∧ ∀ verify route,
      resolvePrincipal mode verify (up.received route) = session.principal verify mode ∧
        (mode = .development → resolvePrincipal .oidc verify (up.received route) = .error tokenRequired) := by
  obtain ⟨session, mode, hresolved, hforward⟩ := forwarded_of_proxy h
  refine ⟨session, mode, hresolved, hforward.settled, fun verify route => ⟨hforward.principal ?_ verify route, ?_⟩⟩
  · rintro rfl
    obtain ⟨codec, value, now, hread⟩ := hdev hforward.settled
    exact synthetic_of_read (Option.some.inj (hread.symm.trans hresolved))
  · rintro rfl
    exact hforward.mismatch verify route

-- A synthetic reviewer reads the cases; the browser names a subject and roles of its own.

def reviewerBody : String := "eyJyb2xlIjoicmV2aWV3ZXIiLCJleHBpcmVzIjoyODgwMDAwMH0"

def reviewerSignature : String := "kycbH_BQx7NJGEGQQM6eFmmuqlhLR-VZUAuLMEcl0_k"

def reviewerDigest : List UInt8 :=
  [147, 39, 27, 31, 240, 80, 199, 179, 73, 24, 65, 144, 64, 206, 158, 22, 105, 174, 170, 88, 75, 71, 229, 89, 80, 11, 139, 48,
    71, 37, 211, 249]

def reviewerCodec : DevelopmentCodec where
  hmac body := if body = reviewerBody.toList then reviewerDigest else []
  fromBase64url signature := if signature = reviewerSignature.toList then reviewerDigest else []
  payload body := if body = reviewerBody.toList then some ("reviewer", some 28800000) else none

def developmentWeb : WebEnvironment := ⟨none, none, none, fun _ => none, []⟩

def namedRequest : BrowserRequest where
  method := "GET"
  url := "http://localhost:3000/api/backend/v1/cases"
  path := ["v1", "cases"]
  search := "?limit=10"
  headers := [("x-actor-id", "eve"), ("x-dev-roles", "admin"), ("accept", "application/json")]
  body := none

def namedSent : UpstreamRequest where
  method := "GET"
  target := .path ["v1".toList, "cases".toList]
  search := "?limit=10"
  headers := [("accept", "application/json"), ("x-actor-id", "synthetic-reviewer"), ("x-reviewer-id", "synthetic-reviewer"),
    ("x-dev-roles", "reviewer")]
  body := none

theorem proxied_principal_named : ∃ session mode,
    some (readDevelopmentSession reviewerCodec (reviewerBody ++ "." ++ reviewerSignature) 0) = some (some session) ∧
      developmentWeb.mode = some mode ∧ ∀ verify route,
        resolvePrincipal mode verify (namedSent.received route) = session.principal verify mode ∧
          (mode = .development → resolvePrincipal .oidc verify (namedSent.received route) = .error tokenRequired) :=
  @proxied_principal developmentWeb namedRequest namedSent _ (by decide +kernel) fun _ => ⟨_, _, _, rfl⟩

section

variable {Key : Type} {V : OidcVerifier Key} {cache : KeyCache Key} {w : LoginWorld}

theorem origin_of_sameOrigin (h : env.sameOriginSubmission request = some true) {origin : String}
    (horigin : headerOf request.headers "origin" = some origin) (hne : origin ≠ "") (hnull : origin ≠ "null") :
    env.originOf request = some origin := by
  have hnamed : (some origin).filter (fun origin => decide (origin ≠ "" ∧ origin ≠ "null")) = some origin :=
    Option.filter_some_pos (decide_eq_true ⟨hne, hnull⟩)
  simp only [WebEnvironment.sameOriginSubmission, horigin, hnamed, Option.map_eq_some_iff] at h
  obtain ⟨own, hown, hsame⟩ := h
  rw [hown, of_decide_eq_true hsame]

/-- What is known of a request that the API lets through for somebody: the policy opens the route to one of its roles, a
request that may change something was not sent from the page of another origin, the token of the session was signed with a
key of the issuer and names the principal, and the session comes from one login of this application. -/
structure LetThrough (V : OidcVerifier Key) (replies : List IssuerReply) (c : VerifyCall) (w : LoginWorld)
    (env : WebEnvironment) (request : BrowserRequest) (template id : String) (session : AppSession) (p : Principal) :
    Prop where
  open_to : ∃ required, requiredRoles request.method template = some required ∧ (p.roles ∩ required).Nonempty
  origin : request.method ≠ "GET" → (p.roles ∩ OPERATION).Nonempty ∧
    ∀ origin, headerOf request.headers "origin" = some origin → origin ≠ "" → origin ≠ "null" →
      env.originOf request = some origin
  backed : V.Backed replies { c with token := Text.strip (session.accessToken.getD "undefined") } p
  stems : ∃ state ∈ w.log.saved, LoginWorld.StemsFrom w.log id session state

/-- Over every run of the web process and of the verifier of the API: a request that the proxy sends on with the session a
browser was answered with, and that the API lets through for somebody, is authorized from end to end. -/
theorem proxied_authorized {calls : List VerifyCall} {c : VerifyCall} {events : List SessionEvent} {r : ℕ} {id : String}
    {route : String → Address.Target → String} {p : Principal} (hcalls : Steps V.next .empty calls cache)
    (hnow : c.now ≤ c.first.doneAt ∧ c.now ≤ c.second.doneAt)
    (hw : Steps (restrict LoginWorld.Fresh LoginWorld.next) LoginWorld.initial events w)
    (hr : w.requests r = some ⟨id, .answered (some session)⟩) (hmode : env.mode = some .oidc)
    (hproxy : env.proxy request (some (some session)) = .forward up)
    (hauth : authorizeRequest .oidc (fun token => (V.verify cache { c with token := token }).2) (up.received route) =
      .ok (some p)) :
    LetThrough V ((calls ++ [c]).flatMap VerifyCall.replies) c w env request (route request.method up.target) id session p := by
  obtain ⟨session', mode, hresolved, hforward⟩ := forwarded_of_proxy hproxy
  obtain rfl := Option.some.inj (Option.some.inj hresolved)
  obtain rfl : .oidc = mode := Option.some.inj (hmode.symm.trans hforward.settled)
  obtain ⟨required, hrequired, hprincipal, hroles⟩ := authorizeRequest_eq_some.1 hauth
  have htemplate : requiredRoles request.method (route request.method up.target) = some required := by
    rw [← hforward.method]
    exact hrequired
  refine ⟨⟨required, htemplate, hroles⟩, fun hget => ⟨?_, fun origin => ?_⟩, ?_, ?_⟩
  · exact hroles.mono (Finset.inter_subset_inter_left (requiredRoles_subset htemplate hget))
  · have hpost : request.method ∈ mutations := by
      obtain hget' | ⟨hpost, -⟩ := policy_roles _ (mem_of_requiredRoles htemplate)
      · exact absurd hget' hget
      · change request.method = "POST" at hpost
        rw [hpost]
        decide
    exact fun horigin => origin_of_sameOrigin (hforward.origin hpost) horigin
  · rw [hforward.principal (fun hdev => nomatch hdev)] at hprincipal
    simp only [AppSession.principal] at hprincipal
    split_ifs at hprincipal
    -- what the verifier answers is passed on as it is
    have haccepted : (V.verify cache { c with token := Text.strip (session.accessToken.getD "undefined") }).2 = .ok p := by
      revert hprincipal
      unfold verified
      split
      · rename_i heq
        intro hp
        rw [heq, Except.ok.inj hp]
      · exact fun hp => nomatch hp
      · exact fun hp => nomatch hp
    have hbacked := accepted_backed (c := { c with token := Text.strip (session.accessToken.getD "undefined") }) hcalls
      hnow haccepted
    rw [List.flatMap_append, List.flatMap_singleton] at hbacked ⊢
    exact hbacked
  · obtain ⟨hok, hrequests⟩ := LoginWorld.requests_run hw
    obtain ⟨state, hstems⟩ := hrequests.shown r id _ hr session (List.mem_singleton_self _)
    exact ⟨state, hok.logins.saved (List.mem_map_of_mem hstems.created), hstems⟩

-- A reviewer creates a case; the browser sends a token and roles of its own, to no effect.

def oidcWeb : WebEnvironment := ⟨some "oidc", none, some "https://app", fun _ => some ("https:", "https://app"), []⟩

def spoofedRequest : BrowserRequest where
  method := "POST"
  url := "https://app/api/backend/v1/cases"
  path := ["v1", "cases"]
  search := ""
  headers := [("origin", "https://app"), ("authorization", "Bearer spoofed"), ("x-dev-roles", "admin")]
  body := none

def sentOn : UpstreamRequest where
  method := "POST"
  target := .path ["v1".toList, "cases".toList]
  search := ""
  headers := [("authorization", "Bearer a1")]
  body := none

theorem proxied_authorized_spoofed : ∃ w, LetThrough localVerifier (([] ++ [earlyCall]).flatMap VerifyCall.replies) earlyCall w
    oidcWeb spoofedRequest "/v1/cases" "id" ⟨"ada", [.reviewer], some "a1", some "r1", some 300000⟩ ⟨"ada", {.reviewer}⟩ := by
  have hexec : (exec (restrict LoginWorld.Fresh LoginWorld.next) LoginWorld.initial
      (LoginWorld.loginEvents ++ [.load 0 "id", .resume 0 0])).any
      (fun w => w.requests 0 = some ⟨"id", .answered (some ⟨"ada", [.reviewer], some "a1", some "r1", some 300000⟩)⟩) =
        true := by
    decide +kernel
  obtain ⟨w, hw, hexec⟩ := (Option.any_eq_true _ _).1 hexec
  exact ⟨w, @proxied_authorized oidcWeb spoofedRequest _ sentOn _ localVerifier _ w [] earlyCall _ 0 "id"
    (fun _ _ => "/v1/cases") _ .nil (by decide +kernel) (.of_exec hw) (of_decide_eq_true hexec) (by decide +kernel)
    (by decide +kernel) (by decide +kernel)⟩

end

/-- A request of the proxy goes to the API, below its path, and what the API reads as the path are the segments the browser
has asked for but for single dots; a last dot leaves an empty segment. The router gives no empty segment. -/
theorem proxied_path {resolved : Option (Option AppSession)} (h : env.proxy request resolved = .forward up)
    (hsegments : ∀ segment ∈ request.path, segment ≠ "") :
    let asked := Address.visited (request.path.map String.toList)
    up.target = .path (env.backend ++ asked.map Address.encodeComponent) ∧
      (Address.decode (['/'].intercalate (asked.map Address.encodeComponent))).map (·.splitOn '/') =
        some asked := by
  obtain ⟨session, mode, -, hforward⟩ := forwarded_of_proxy h
  obtain ⟨hne, hpath⟩ := hforward.path
  intro asked
  have hclean : ∀ s ∈ request.path.map String.toList, s ≠ [] ∧ s ≠ ['.', '.'] ∧ '/' ∉ s := by
    intro s hs
    obtain ⟨segment, hsegment, rfl⟩ := List.mem_map.1 hs
    obtain ⟨hdots, hslash⟩ := hpath segment hsegment
    refine ⟨fun hnil => hsegments segment hsegment (String.toList_inj.1 hnil), fun hup => hdots ?_, hslash⟩
    exact String.toList_inj.1 hup
  refine ⟨?_, ?_⟩
  · have hmap : request.path.map (fun segment => Address.encodeComponent segment.toList) =
        (request.path.map String.toList).map Address.encodeComponent := (List.map_map ..).symm
    rw [hforward.target, hmap]
    exact Address.resolve_encoded env.backend (by simpa using hne) fun s hs => ⟨(hclean s hs).1, (hclean s hs).2.1⟩
  · rw [Address.decode_path, Option.map_some]
    have hslash : ∀ s ∈ asked, '/' ∉ s := by
      intro s hs
      obtain hs | hs := List.mem_append.1 hs
      · exact (hclean s (List.mem_of_mem_filter hs)).2.2
      · split_ifs at hs
        · rw [List.mem_singleton.1 hs]
          exact List.not_mem_nil
        · cases hs
    rw [List.splitOn_intercalate '/' hslash (Address.visited_ne_nil (by simpa using hne))]

/-- A name with a percent sign, a question mark and a letter of two bytes, after a dot. -/
def oddRequest : BrowserRequest := { spoofedRequest with path := ["v1", ".", "5%?é"] }

theorem proxied_path_odd : Address.visited (oddRequest.path.map String.toList) = ["v1".toList, "5%?é".toList] ∧
    oidcWeb.proxy oddRequest (some (some ⟨"ada", [.reviewer], some "a1", some "r1", some 300000⟩)) =
      .forward { sentOn with target := .path ["v1".toList, "5%25%3F%C3%A9".toList] } ∧
    (Address.decode "v1/5%25%3F%C3%A9".toList).map (·.splitOn '/') = some ["v1".toList, "5%?é".toList] := by
  have hforward : oidcWeb.proxy oddRequest (some (some ⟨"ada", [.reviewer], some "a1", some "r1", some 300000⟩)) =
      .forward { sentOn with target := .path ["v1".toList, "5%25%3F%C3%A9".toList] } := by
    decide +kernel
  exact ⟨by decide +kernel, hforward, (proxied_path hforward (by decide)).2⟩

end InvoiceOps
