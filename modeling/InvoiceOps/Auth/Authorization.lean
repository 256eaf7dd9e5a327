import InvoiceOps.Auth.Verifier

/-! Authorization of the API (`apps/api/security.py`), which runs before every handler of `apps/api/main.py`. Each route
has an entry that names the roles it is open to; a route without one is closed. Who asks is said by an access token, or
by headers in development mode. -/

namespace InvoiceOps

inductive AuthMode
  | development
  | oidc
deriving DecidableEq, Repr

/-- What the API sees of a request: its method, the path of the route that was found for it, empty when there is none, and
its headers, their names in lower case. -/
structure ApiRequest where
  method : String
  template : String
  headers : List (String × String)
deriving DecidableEq

/-- `request.headers.get(name)` -/
def headerOf (headers : List (String × String)) (name : String) : Option String :=
  (headers.find? (·.1 = name)).map Prod.snd

/-- The `detail` of an `HTTPException`: a text, or a code with a message. -/
inductive ErrorDetail
  | text (message : String)
  | coded (code message : String)
deriving DecidableEq, Repr

structure HttpError where
  statusCode : ℕ
  detail : ErrorDetail
  wwwAuthenticate : Option String
deriving DecidableEq, Repr

def READ : Finset Role := {.operator, .reviewer, .auditor, .admin}

def OPERATION : Finset Role := {.operator, .reviewer, .admin}

def REVIEW : Finset Role := {.reviewer, .admin}

def REVIEW_READ : Finset Role := {.reviewer, .auditor, .admin}

def ROUTE_ROLES : List ((String × String) × Finset Role) := [
  (("GET", "/v1/me"), READ),
  (("POST", "/v1/cases"), OPERATION),
  (("GET", "/v1/cases/{case_id}"), READ),
  (("POST", "/v1/cases/{case_id}/documents"), OPERATION),
  (("GET", "/v1/cases/{case_id}/documents"), READ),
  (("GET", "/v1/cases/{case_id}/extractions"), READ),
  (("GET", "/v1/cases/{case_id}/events"), READ),
  (("POST", "/v1/cases/{case_id}/purchase-order/confirm"), REVIEW),
  (("POST", "/v1/cases/{case_id}/receipts/{document_id}/confirm"), REVIEW),
  (("POST", "/v1/cases/{case_id}/match"), OPERATION),
  (("POST", "/v1/invoices"), OPERATION),
  (("GET", "/v1/invoices"), READ),
  (("GET", "/v1/invoices/{document_id}"), READ),
  (("GET", "/v1/documents/{document_id}/content"), READ),
  (("GET", "/v1/dashboard/summary"), READ),
  (("GET", "/v1/jobs/{job_id}"), READ),
  (("GET", "/v1/jobs/{job_id}/events"), READ),
  (("GET", "/v1/invoices/{document_id}/extraction"), READ),
  (("POST", "/v1/purchase-orders"), OPERATION),
  (("GET", "/v1/purchase-orders"), READ),
  (("GET", "/v1/purchase-orders/{purchase_order_id}"), READ),
  (("POST", "/v1/goods-receipts"), OPERATION),
  (("GET", "/v1/goods-receipts"), READ),
  (("GET", "/v1/purchase-orders/{purchase_order_id}/goods-receipts"), READ),
  (("GET", "/v1/goods-receipts/{receipt_id}"), READ),
  (("POST", "/v1/goods-receipts/{receipt_id}/reverse"), REVIEW),
  (("POST", "/v1/documents/{document_id}/matches"), OPERATION),
  (("GET", "/v1/matches/{match_run_id}"), READ),
  (("GET", "/v1/matches/{match_run_id}/three-way-context"), READ),
  (("GET", "/v1/matches/{match_run_id}/risk"), READ),
  (("GET", "/v1/risk-assessments/{risk_assessment_id}"), READ),
  (("GET", "/v1/review-cases"), REVIEW_READ),
  (("GET", "/v1/review-cases/{case_id}"), REVIEW_READ),
  (("POST", "/v1/review-cases/{case_id}/claim"), REVIEW),
  (("POST", "/v1/review-cases/{case_id}/release"), REVIEW),
  (("POST", "/v1/review-cases/{case_id}/comments"), REVIEW),
  (("POST", "/v1/review-cases/{case_id}/resolve"), REVIEW),
  (("GET", "/v1/review-cases/{case_id}/events"), REVIEW_READ),
  (("GET", "/v1/review-cases/{case_id}/audit-verification"), REVIEW_READ)]

def openTemplates : List String := ["/health/live", "/healthz", "/health/ready"]

/-- `ROUTE_ROLES.get((method, template))` -/
def requiredRoles (method template : String) : Option (Finset Role) :=
  (ROUTE_ROLES.find? (·.1 = (method, template))).map Prod.snd

def missingReviewer : HttpError :=
  ⟨422, .coded "INVALID_REVIEWER_ID" "X-Reviewer-ID must contain 1 to 100 nonblank characters", none⟩

def missingActor : HttpError :=
  ⟨422, .coded "INVALID_ACTOR_ID" "X-Actor-ID must contain 1 to 100 nonblank characters", none⟩

def tokenRequired : HttpError := ⟨401, .text "Bearer access token required", some "Bearer"⟩

def blankHeader (headers : List (String × String)) (name : String) : Bool :=
  decide (Text.strip ((headerOf headers name).getD "") = "")

/-- A header that is there and not empty. -/
def givenHeader (headers : List (String × String)) (name : String) : Option String :=
  (headerOf headers name).filter (· ≠ "")

/-- The actor that the headers of a development request name. -/
def developmentSubject (headers : List (String × String)) : String :=
  Text.strip (((givenHeader headers "x-reviewer-id").or (givenHeader headers "x-actor-id")).getD "local-developer")

/-- `frozenset(Role(value.strip()) for value in raw.split(","))` -/
def developmentRoles (raw : String) : Option (Finset Role) :=
  (((raw.toList.splitOn ',').mapM fun value => Role.ofValue (Text.strip (String.ofList value)))).map List.toFinset

/-- The token of a header that starts with `Bearer `, when it is not blank. -/
def bearerToken (authorization : String) : Option String :=
  let token := Text.strip (String.ofList (authorization.toList.drop 7))
  if "Bearer ".toList.isPrefixOf authorization.toList = true ∧ token ≠ "" then some token else none

/-- How an answer of the verifier is reported. -/
def verified : Except AuthError Principal → Except HttpError Principal
  | .ok principal => .ok principal
  | .error (.tokenRejected _) => .error ⟨401, .text "Invalid access token", some "Bearer"⟩
  | .error .identityProviderUnavailable => .error ⟨503, .text "Identity verification unavailable", none⟩

def resolvePrincipal (mode : AuthMode) (verify : String → Except AuthError Principal) (request : ApiRequest) :
    Except HttpError Principal :=
  match mode with
  | .development =>
    if "/v1/review-cases/".toList.isPrefixOf request.template.toList = true ∧ request.method = "POST" ∧
        blankHeader request.headers "x-reviewer-id" = true then .error missingReviewer
    else if request.template = "/v1/goods-receipts/{receipt_id}/reverse" ∧ blankHeader request.headers "x-actor-id" = true then
      .error missingActor
    else
      let subject := developmentSubject request.headers
      if subject = "" ∨ 100 < subject.length then .error ⟨422, .text "Invalid development actor", none⟩
      else
        match developmentRoles ((headerOf request.headers "x-dev-roles").getD "admin") with
        | none => .error ⟨422, .text "Invalid development role", none⟩
        | some roles => .ok ⟨subject, roles⟩
  | .oidc =>
    match bearerToken ((headerOf request.headers "authorization").getD "") with
    | none => .error tokenRequired
    | some token => verified (verify token)

/-- `authorize_request`: the principal it leaves on the request, none where a route asks for nobody. -/
def authorizeRequest (mode : AuthMode) (verify : String → Except AuthError Principal) (request : ApiRequest) :
    Except HttpError (Option Principal) :=
  if request.template ∈ openTemplates then .ok none
  else
    match requiredRoles request.method request.template with
    | none => .error ⟨403, .text "Route has no authorization policy", none⟩
    | some required =>
      match resolvePrincipal mode verify request with
      | .error e => .error e
      | .ok principal =>
        if principal.roles ∩ required = ∅ then .error ⟨403, .text "Insufficient role", none⟩ else .ok (some principal)

def getPrincipal : Option Principal → Except HttpError Principal
  | some principal => .ok principal
  | none => .error ⟨401, .text "Authentication required", none⟩

theorem mem_of_requiredRoles {method template : String} {required : Finset Role}
    (h : requiredRoles method template = some required) : ((method, template), required) ∈ ROUTE_ROLES := by
  obtain ⟨⟨key, roles⟩, hfound, rfl⟩ := Option.map_eq_some_iff.1 h
  have hmatches := List.find?_some hfound
  obtain rfl : key = (method, template) := of_decide_eq_true hmatches
  exact List.mem_of_find?_eq_some hfound

theorem policy_roles : ∀ entry ∈ ROUTE_ROLES, entry.1.1 = "GET" ∨ entry.1.1 = "POST" ∧ entry.2 ⊆ OPERATION := by
  decide +kernel

/-- Only reading is open to every role; a request that may change something needs more than an auditor. -/
theorem requiredRoles_subset {method template : String} {required : Finset Role}
    (h : requiredRoles method template = some required) (hmethod : method ≠ "GET") : required ⊆ OPERATION := by
  obtain hget | ⟨-, hroles⟩ := policy_roles _ (mem_of_requiredRoles h)
  · exact absurd hget hmethod
  · exact hroles

theorem open_unlisted : ∀ template ∈ openTemplates, ∀ entry ∈ ROUTE_ROLES, entry.1.2 ≠ template := by
  decide +kernel

/-- What it takes to be let through as somebody: an entry of the policy, and one of its roles. -/
theorem authorizeRequest_eq_some {mode : AuthMode} {verify : String → Except AuthError Principal} {request : ApiRequest}
    {principal : Principal} : authorizeRequest mode verify request = .ok (some principal) ↔
      ∃ required, requiredRoles request.method request.template = some required ∧
        resolvePrincipal mode verify request = .ok principal ∧ (principal.roles ∩ required).Nonempty := by
  constructor
  · intro h
    unfold authorizeRequest at h
    split_ifs at h with hopen
    · cases h
    · split at h
      · cases h
      · rename_i required hrequired
        split at h
        · cases h
        · rename_i p hp
          split_ifs at h with hnone
          obtain rfl : p = principal := Option.some.inj (Except.ok.inj h)
          exact ⟨required, hrequired, hp, Finset.nonempty_iff_ne_empty.2 hnone⟩
  · rintro ⟨required, hrequired, hp, hsome⟩
    have hclosed : request.template ∉ openTemplates := fun hopen =>
      open_unlisted _ hopen _ (mem_of_requiredRoles hrequired) rfl
    rw [authorizeRequest, if_neg hclosed]
    simp only [hrequired, hp]
    exact if_neg hsome.ne_empty

end InvoiceOps
