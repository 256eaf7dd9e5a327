import InvoiceOps.Lib.Json
import InvoiceOps.Lib.Lists
import InvoiceOps.Lib.Run
import InvoiceOps.Lib.Text
import Mathlib.Data.Finset.Card

/-! Verification of access tokens (`invoiceops/auth.py`). The signing keys of the issuer are cached for some time and
fetched again when a token names a key that is not known. A key that the issuer has withdrawn is accepted no longer
than the cache lives, and no key is accepted while the issuer cannot be reached and the cache is old. -/

namespace InvoiceOps

open StateMachine

inductive Role
  | operator
  | reviewer
  | auditor
  | admin
deriving DecidableEq, Repr

def Role.value : Role → String
  | .operator => "operator"
  | .reviewer => "reviewer"
  | .auditor => "auditor"
  | .admin => "admin"

/-- `Role(value)` -/
def Role.ofValue (value : String) : Option Role :=
  [Role.operator, .reviewer, .auditor, .admin].find? (·.value = value)

structure Principal where
  subject : String
  roles : Finset Role
deriving DecidableEq

inductive AuthError
  | tokenRejected (message : String)
  | identityProviderUnavailable
deriving DecidableEq, Repr

/-- `urlparse` of an address, as far as it is asked for. -/
structure ParsedUrl where
  scheme : String
  hostname : Option String
  username : Option String
  password : Option String
  fragment : String

/-- `dict.get` -/
def jsonGet (kvs : List (String × Json)) (key : String) : Option Json := (kvs.find? (·.1 = key)).map Prod.snd

/-- The settings of a verifier, and what it takes from libraries: the parts of an address, the header of a token, its
claims when the signature, the issuer, the audience and the times are right, and the key a JWK stands for. -/
structure OidcVerifier (Key : Type) where
  issuer : String
  audience : String
  rolesClaim : String
  ttlSeconds : ℚ
  urlparse : String → ParsedUrl
  unverifiedHeader : String → Option (List (String × Json))
  decode : String → Key → String → String → ℚ → Option (List (String × Json))
  publicKey : Json → Option Key
  ttl_pos : 0 < ttlSeconds

/-- The mutable fields: the keys with the time they expire, and the address they are fetched from. -/
structure KeyCache (Key : Type) where
  keys : List (String × Key)
  expiresAt : ℚ
  jwksUri : Option String

def KeyCache.empty {Key : Type} : KeyCache Key := ⟨[], 0, none⟩

/-- What the issuer answers during one refresh, nothing when a request fails, and the time the refresh ends. -/
structure IssuerReply where
  discovery : Option Json
  jwks : Option Json
  doneAt : ℚ

section

variable {Key : Type} (V : OidcVerifier Key)

def OidcVerifier.trustedUri (value : String) : Bool :=
  let parsed := V.urlparse value
  (decide (parsed.scheme = "https") || decide ((V.urlparse V.issuer).scheme = "http") && decide (parsed.scheme = "http")) &&
    parsed.hostname.any (· ≠ "") && parsed.username.all (· = "") && parsed.password.all (· = "") &&
    decide (parsed.fragment = "")

/-- The address of the keys in the metadata of the issuer. -/
def OidcVerifier.discoveredUri : Json → Option String
  | .obj metadata =>
    match jsonGet metadata "issuer", jsonGet metadata "jwks_uri" with
    | some (.str issuer), some (.str uri) => if issuer = V.issuer ∧ V.trustedUri uri = true then some uri else none
    | _, _ => none
  | _ => none

/-- The name of a JWK that may sign, when it is one. -/
def signingKid : Json → Option String
  | .obj item =>
    match jsonGet item "kid", jsonGet item "kty" with
    | some (.str kid), some (.str kty) =>
      if kty = "RSA" ∧ (jsonGet item "use").all (fun v => v matches .str "sig") = true ∧
          (jsonGet item "alg").all (fun v => v matches .str "RS256") = true then some kid
      else none
    | _, _ => none
  | _ => none

def setKey (keys : List (String × Key)) (kid : String) (key : Key) : List (String × Key) :=
  keys.filter (·.1 ≠ kid) ++ [(kid, key)]

def OidcVerifier.addKey (keys : Option (List (String × Key))) (item : Json) : Option (List (String × Key)) :=
  match signingKid item with
  | none => keys
  | some kid => keys.bind fun keys => (V.publicKey item).map (setKey keys kid)

/-- The keys of a JWKS; a set without one, or with too many, is refused. -/
def OidcVerifier.keysOf : Json → Option (List (String × Key))
  | .obj data =>
    match jsonGet data "keys" with
    | some (.arr items) =>
      if 50 < items.length then none
      else (items.foldl V.addKey (some [])).filter (· ≠ [])
    | _ => none
  | _ => none

/-- `_refresh`: the cache afterwards, and whether it was renewed. The address is kept when the keys cannot be fetched. -/
def OidcVerifier.refresh (cache : KeyCache Key) (reply : IssuerReply) : KeyCache Key × Bool :=
  match cache.jwksUri.or (reply.discovery.bind V.discoveredUri) with
  | none => (cache, false)
  | some uri =>
    match reply.jwks.bind V.keysOf with
    | none => ({ cache with jwksUri := some uri }, false)
    | some keys => (⟨keys, reply.doneAt + V.ttlSeconds, some uri⟩, true)

def KeyCache.find (cache : KeyCache Key) (kid : String) : Option Key := (cache.keys.find? (·.1 = kid)).map Prod.snd

/-- `_key_for`, at this time: an old cache is refreshed first, and once more when the key is not found. -/
def OidcVerifier.keyFor (cache : KeyCache Key) (kid : String) (now : ℚ) (first second : IssuerReply) :
    KeyCache Key × Except AuthError (Option Key) :=
  let renewed := if cache.expiresAt ≤ now then V.refresh cache first else (cache, true)
  if renewed.2 = false then (renewed.1, .error .identityProviderUnavailable)
  else
    match renewed.1.find kid with
    | some key => (renewed.1, .ok (some key))
    | none =>
      let again := V.refresh renewed.1 second
      if again.2 = false then (again.1, .error .identityProviderUnavailable) else (again.1, .ok (again.1.find kid))

/-- The name of the key in the header of a token. -/
def OidcVerifier.tokenKid (token : String) : Except AuthError String :=
  if 16384 < token.length then .error (.tokenRejected "token too large")
  else
    match V.unverifiedHeader token with
    | none => .error (.tokenRejected "malformed token")
    | some header =>
      if (jsonGet header "alg").all (fun v => !(v matches .str "RS256")) = true then
        .error (.tokenRejected "disallowed algorithm")
      else
        match jsonGet header "kid" with
        | some (.str kid) =>
          if kid = "" ∨ 256 < kid.length then .error (.tokenRejected "missing signing key identifier") else .ok kid
        | _ => .error (.tokenRejected "missing signing key identifier")

def textOf : Json → Option String
  | .str s => some s
  | _ => none

/-- The roles of a claim: each is a text, known and named once. -/
def readRoles (raw : List Json) : Except AuthError (Finset Role) :=
  match (raw.filterMap textOf).mapM Role.ofValue with
  | none => .error (.tokenRejected "unknown role")
  | some roles =>
    if roles.toFinset.card ≠ raw.length ∨ roles = [] then .error (.tokenRejected "invalid roles") else .ok roles.toFinset

def OidcVerifier.principalOf (claims : List (String × Json)) : Except AuthError Principal :=
  match jsonGet claims "sub" with
  | some (.str subject) =>
    if Text.strip subject = "" ∨ 100 < subject.length then .error (.tokenRejected "invalid subject")
    else
      match jsonGet claims V.rolesClaim with
      | some (.arr raw) =>
        if raw = [] then .error (.tokenRejected "missing roles") else (readRoles raw).map fun roles => ⟨subject, roles⟩
      | _ => .error (.tokenRejected "missing roles")
  | _ => .error (.tokenRejected "invalid subject")

/-- A call of `verify`: the clock of the cache, the clock of the claims, and what the issuer answers. -/
structure VerifyCall where
  token : String
  now : ℚ
  wallClock : ℚ
  first : IssuerReply
  second : IssuerReply

def OidcVerifier.verify (cache : KeyCache Key) (c : VerifyCall) : KeyCache Key × Except AuthError Principal :=
  match V.tokenKid c.token with
  | .error e => (cache, .error e)
  | .ok kid =>
    match V.keyFor cache kid c.now c.first c.second with
    | (cache, .error e) => (cache, .error e)
    | (cache, .ok none) => (cache, .error (.tokenRejected "unknown signing key"))
    | (cache, .ok (some key)) =>
      match V.decode c.token key V.issuer V.audience c.wallClock with
      | none => (cache, .error (.tokenRejected "invalid token claims or signature"))
      | some claims => (cache, V.principalOf claims)

/-- A call leaves a cache behind; `time.monotonic` does not go back while it runs. -/
def OidcVerifier.next (cache : KeyCache Key) (c : VerifyCall) : Option (KeyCache Key) :=
  if c.now ≤ c.first.doneAt ∧ c.now ≤ c.second.doneAt then some (V.verify cache c).1 else none

/-- The issuer has listed this key under this name in the answer. -/
def OidcVerifier.Serves (reply : IssuerReply) (kid : String) (key : Key) : Prop :=
  ∃ doc keys, reply.jwks = some doc ∧ V.keysOf doc = some keys ∧ (keys.find? (·.1 = kid)).map Prod.snd = some key

/-- What is in the cache comes from one of the answers, and expires with it. -/
def OidcVerifier.Holds (replies : List IssuerReply) (cache : KeyCache Key) : Prop :=
  ∀ kid key, cache.find kid = some key → ∃ r ∈ replies, V.Serves r kid key ∧ cache.expiresAt = r.doneAt + V.ttlSeconds

def VerifyCall.replies (c : VerifyCall) : List IssuerReply := [c.first, c.second]

variable {V} {cache : KeyCache Key} {replies : List IssuerReply} {reply first second : IssuerReply} {kid : String} {now : ℚ}

theorem OidcVerifier.Holds.mono {replies' : List IssuerReply} (h : V.Holds replies cache) (hsub : replies ⊆ replies') :
    V.Holds replies' cache := by
  intro kid key hkey
  obtain ⟨r, hr, hserves⟩ := h kid key hkey
  exact ⟨r, hsub hr, hserves⟩

theorem refresh_cases (V : OidcVerifier Key) (cache : KeyCache Key) (reply : IssuerReply) :
    (V.refresh cache reply).2 = false ∧ (V.refresh cache reply).1.keys = cache.keys ∧
        (V.refresh cache reply).1.expiresAt = cache.expiresAt ∨
      (V.refresh cache reply).2 = true ∧ (V.refresh cache reply).1.expiresAt = reply.doneAt + V.ttlSeconds ∧
        ∃ doc, reply.jwks = some doc ∧ V.keysOf doc = some (V.refresh cache reply).1.keys := by
  unfold OidcVerifier.refresh
  split
  · exact .inl ⟨rfl, rfl, rfl⟩
  · split
    · exact .inl ⟨rfl, rfl, rfl⟩
    · rename_i keys hkeys
      obtain ⟨doc, hdoc, hkeys⟩ := Option.bind_eq_some_iff.1 hkeys
      exact .inr ⟨rfl, rfl, doc, hdoc, hkeys⟩

theorem refresh_holds (h : V.Holds replies cache) (hreply : reply ∈ replies) : V.Holds replies (V.refresh cache reply).1 := by
  intro kid key hkey
  obtain ⟨-, hkeys, hexpires⟩ | ⟨-, hexpires, doc, hdoc, hkeys⟩ := refresh_cases V cache reply
  · rw [KeyCache.find, hkeys] at hkey
    obtain ⟨r, hr, hserves, hr'⟩ := h kid key hkey
    exact ⟨r, hr, hserves, hexpires.trans hr'⟩
  · exact ⟨reply, hreply, ⟨doc, _, hdoc, hkeys, hkey⟩, hexpires⟩

theorem refresh_expires (h : (V.refresh cache reply).2 = true) (hnow : now ≤ reply.doneAt) :
    now < (V.refresh cache reply).1.expiresAt := by
  obtain ⟨hfalse, -⟩ | ⟨-, hexpires, -⟩ := refresh_cases V cache reply
  · rw [hfalse] at h
    cases h
  · rw [hexpires]
    linarith [V.ttl_pos]

/-- `_key_for` keeps the cache honest, and a key it returns is in a cache that has not expired. -/
theorem keyFor_spec (h : V.Holds replies cache) (hfirst : first ∈ replies) (hsecond : second ∈ replies)
    (hnow : now ≤ first.doneAt ∧ now ≤ second.doneAt) :
    V.Holds replies (V.keyFor cache kid now first second).1 ∧
      ∀ key, (V.keyFor cache kid now first second).2 = .ok (some key) →
        (V.keyFor cache kid now first second).1.find kid = some key ∧
          now < (V.keyFor cache kid now first second).1.expiresAt := by
  unfold OidcVerifier.keyFor
  generalize hrenewed : (if cache.expiresAt ≤ now then V.refresh cache first else (cache, true)) = renewed
  have hholds : V.Holds replies renewed.1 := by
    rw [← hrenewed]
    split_ifs
    · exact refresh_holds h hfirst
    · exact h
  have hexpires : renewed.2 = true → now < renewed.1.expiresAt := by
    rw [← hrenewed]
    split_ifs with hold
    · exact fun hsucceeded => refresh_expires hsucceeded hnow.1
    · exact fun _ => lt_of_not_ge hold
  dsimp only
  by_cases hfailed : renewed.2 = false
  · rw [if_pos hfailed]
    exact ⟨hholds, fun key hkey => nomatch hkey⟩
  · rw [if_neg hfailed]
    split
    · rename_i key hkey
      refine ⟨hholds, fun key' hkey' => ?_⟩
      obtain rfl : key = key' := Option.some.inj (Except.ok.inj hkey')
      exact ⟨hkey, hexpires (Bool.eq_true_of_not_eq_false hfailed)⟩
    · split_ifs with hagain
      · exact ⟨refresh_holds hholds hsecond, fun key hkey => nomatch hkey⟩
      · refine ⟨refresh_holds hholds hsecond, fun key hkey => ⟨Except.ok.inj hkey, ?_⟩⟩
        exact refresh_expires (Bool.eq_true_of_not_eq_false hagain) hnow.2

theorem filterMap_textOf {raw : List Json} (h : (raw.filterMap textOf).length = raw.length) :
    raw = (raw.filterMap textOf).map .str := by
  induction raw with
  | nil => rfl
  | cons v raw ih =>
    have hle := List.length_filterMap_le textOf raw
    rw [List.filterMap_cons] at h ⊢
    cases v with
    | str s =>
      simp only [textOf, List.length_cons, Nat.add_right_cancel_iff] at h ⊢
      rw [List.map_cons, ← ih h]
    | _ =>
      simp only [textOf, List.length_cons] at h
      omega

theorem ofValue_eq_some {value : String} {role : Role} : Role.ofValue value = some role ↔ role.value = value := by
  constructor
  · intro h
    have hfound := List.find?_some h
    exact of_decide_eq_true hfound
  · rintro rfl
    cases role <;> decide

theorem ofValue_values (named : List Role) : (named.map Role.value).mapM Role.ofValue = some named := by
  rw [Lists.mapM_eq_some_iff, List.forall₂_map_left_iff, List.forall₂_same]
  exact fun role _ => ofValue_eq_some.2 rfl

theorem filterMap_values (named : List Role) :
    (named.map fun r => Json.str r.value).filterMap textOf = named.map Role.value := by
  rw [List.filterMap_map]
  exact congrFun List.filterMap_eq_map named

theorem readRoles_eq_ok {raw : List Json} {roles : Finset Role} : readRoles raw = .ok roles ↔
    ∃ named : List Role, named.Nodup ∧ named ≠ [] ∧ raw = named.map (fun r => .str r.value) ∧ roles = named.toFinset := by
  constructor
  · intro h
    unfold readRoles at h
    split at h
    · cases h
    · rename_i named hnamed
      have hvalues := Lists.mapM_eq_some_iff.1 hnamed
      have hlength : (raw.filterMap textOf).length = named.length := hvalues.length_eq
      have hle := List.length_filterMap_le textOf raw
      have hcard := named.toFinset_card_le
      split_ifs at h with hinvalid
      obtain ⟨hraw, hne⟩ := not_or.1 hinvalid
      rw [not_not] at hraw
      have hnodup : named.Nodup := by
        rw [← Multiset.coe_nodup, ← Multiset.toFinset_card_eq_card_iff_nodup]
        change named.toFinset.card = named.length
        omega
      have htexts : raw.filterMap textOf = named.map Role.value := by
        refine (List.map_id _).symm.trans (Lists.map_eq_map_of_forall₂ (hvalues.imp fun value role hrole => ?_))
        exact (ofValue_eq_some.1 hrole).symm
      have hraw : raw = (raw.filterMap textOf).map .str := filterMap_textOf (by omega)
      refine ⟨named, hnodup, hne, ?_, (Except.ok.inj h).symm⟩
      rw [hraw, htexts, List.map_map]
      rfl
  · rintro ⟨named, hnodup, hne, rfl, rfl⟩
    rw [readRoles, filterMap_values, ofValue_values]
    simp [List.toFinset_card_of_nodup hnodup, hne]

/-- The claims name this principal: a subject that is not blank, and its roles, each once. -/
structure OidcVerifier.Names (V : OidcVerifier Key) (claims : List (String × Json)) (p : Principal) : Prop where
  subject : jsonGet claims "sub" = some (.str p.subject)
  nonblank : Text.strip p.subject ≠ ""
  short : p.subject.length ≤ 100
  roles : ∃ named : List Role, named.Nodup ∧ named ≠ [] ∧
    jsonGet claims V.rolesClaim = some (.arr (named.map fun r => .str r.value)) ∧ p.roles = named.toFinset

theorem principalOf_eq_ok {claims : List (String × Json)} {p : Principal} : V.principalOf claims = .ok p ↔ V.Names claims p := by
  constructor
  · intro h
    unfold OidcVerifier.principalOf at h
    split at h
    · rename_i subject hsubject
      split_ifs at h with hbad
      obtain ⟨hblank, hlong⟩ := not_or.1 hbad
      split at h
      · rename_i raw hraw
        split_ifs at h
        cases hroles : readRoles raw with
        | error e =>
          rw [hroles] at h
          cases h
        | ok roles =>
          rw [hroles] at h
          obtain rfl := Except.ok.inj h
          obtain ⟨named, hnodup, hne, rfl, rfl⟩ := readRoles_eq_ok.1 hroles
          exact ⟨hsubject, hblank, not_lt.1 hlong, named, hnodup, hne, hraw, rfl⟩
      · cases h
    · cases h
  · rintro ⟨hsubject, hblank, hshort, named, hnodup, hne, hroles, hp⟩
    have hread : readRoles (named.map fun r => .str r.value) = .ok p.roles := by
      rw [readRoles_eq_ok, hp]
      exact ⟨named, hnodup, hne, rfl, rfl⟩
    simp only [OidcVerifier.principalOf, hsubject, hroles]
    rw [if_neg (not_or.2 ⟨hblank, not_lt.2 hshort⟩), if_neg (by simp [hne]), hread]
    rfl

/-- A token is accepted with a key the issuer has listed under the name in its header, not longer ago than the cache
lives, and the claims it signs name the principal. -/
structure OidcVerifier.Backed (V : OidcVerifier Key) (replies : List IssuerReply) (c : VerifyCall) (p : Principal) : Prop where
  key : ∃ kid key claims, V.tokenKid c.token = .ok kid ∧
    (∃ r ∈ replies, V.Serves r kid key ∧ c.now < r.doneAt + V.ttlSeconds) ∧
    V.decode c.token key V.issuer V.audience c.wallClock = some claims ∧ V.Names claims p

theorem verify_holds {c : VerifyCall} (h : V.Holds replies cache) (hreplies : c.replies ⊆ replies)
    (hnow : c.now ≤ c.first.doneAt ∧ c.now ≤ c.second.doneAt) :
    V.Holds replies (V.verify cache c).1 ∧ ∀ p, (V.verify cache c).2 = .ok p → V.Backed replies c p := by
  unfold OidcVerifier.verify
  split
  · exact ⟨h, fun p hp => nomatch hp⟩
  · rename_i kid hkid
    have hfirst : c.first ∈ replies := hreplies (by simp [VerifyCall.replies])
    have hsecond : c.second ∈ replies := hreplies (by simp [VerifyCall.replies])
    have hspec := @keyFor_spec Key V cache replies c.first c.second kid c.now h hfirst hsecond hnow
    split
    · rename_i hresult
      rw [hresult] at hspec
      exact ⟨hspec.1, fun p hp => nomatch hp⟩
    · rename_i hresult
      rw [hresult] at hspec
      exact ⟨hspec.1, fun p hp => nomatch hp⟩
    · rename_i after key hresult
      rw [hresult] at hspec
      obtain ⟨hfind, hnow⟩ := hspec.2 key rfl
      split
      · exact ⟨hspec.1, fun p hp => nomatch hp⟩
      · rename_i claims hclaims
        refine ⟨hspec.1, fun p hp => ⟨kid, key, claims, hkid, ?_, hclaims, principalOf_eq_ok.1 hp⟩⟩
        obtain ⟨r, hr, hserves, hexpires⟩ := hspec.1 kid key hfind
        exact ⟨r, hr, hserves, hexpires ▸ hnow⟩

theorem holds_run {calls : List VerifyCall} (h : Steps V.next .empty calls cache) :
    V.Holds (calls.flatMap VerifyCall.replies) cache := by
  induction h with
  | nil => exact fun kid key hkey => nomatch hkey
  | @snoc calls cache c cache' _ hn ih =>
    unfold OidcVerifier.next at hn
    split_ifs at hn with hnow
    obtain rfl := Option.some.inj hn
    have hsub : calls.flatMap VerifyCall.replies ⊆ (calls ++ [c]).flatMap VerifyCall.replies := by
      rw [List.flatMap_append]
      exact List.subset_append_left ..
    refine (verify_holds (ih.mono hsub) ?_ hnow).1
    rw [List.flatMap_append, List.flatMap_singleton]
    exact List.subset_append_right ..

/-- Over every run of calls, whatever the issuer answers: a token that is accepted was verified with a key the issuer has
listed less than the lifetime of the cache before. -/
theorem accepted_backed {calls : List VerifyCall} {c : VerifyCall} {p : Principal} (h : Steps V.next .empty calls cache)
    (hnow : c.now ≤ c.first.doneAt ∧ c.now ≤ c.second.doneAt) (hp : (V.verify cache c).2 = .ok p) :
    V.Backed ((calls ++ [c]).flatMap VerifyCall.replies) c p := by
  have hsub : calls.flatMap VerifyCall.replies ⊆ (calls ++ [c]).flatMap VerifyCall.replies := by
    rw [List.flatMap_append]
    exact List.subset_append_left ..
  refine (verify_holds ((holds_run h).mono hsub) ?_ hnow).2 p hp
  rw [List.flatMap_append, List.flatMap_singleton]
  exact List.subset_append_right ..

/-- A key the issuer lists no more is refused once the cache has outlived the last answer that lists it. -/
theorem withdrawn_rejected {calls : List VerifyCall} {c : VerifyCall} {kid : String} {time : ℚ} (p : Principal)
    (h : Steps V.next .empty calls cache) (hnow : c.now ≤ c.first.doneAt ∧ c.now ≤ c.second.doneAt)
    (hkid : V.tokenKid c.token = .ok kid)
    (hwithdrawn : ∀ r ∈ (calls ++ [c]).flatMap VerifyCall.replies, time ≤ r.doneAt → ∀ key, ¬V.Serves r kid key)
    (htime : time + V.ttlSeconds ≤ c.now) : (V.verify cache c).2 ≠ .ok p := by
  intro hp
  obtain ⟨kid', key, -, hkid', ⟨r, hr, hserves, hage⟩, -⟩ := (accepted_backed h hnow hp).key
  obtain rfl : kid = kid' := Except.ok.inj (hkid.symm.trans hkid')
  exact hwithdrawn r hr (by linarith) key hserves

-- A run with two answers: the key `k1` is listed at first, and `k2` in its place later.

def localVerifier : OidcVerifier String where
  issuer := "https://id"
  audience := "api"
  rolesClaim := "roles"
  ttlSeconds := 300
  urlparse _ := ⟨"https", some "id", none, none, ""⟩
  unverifiedHeader _ := some [("alg", .str "RS256"), ("kid", .str "k1")]
  decode _ key _ _ _ := if key = "n1" then some [("sub", .str "ada"), ("roles", .arr [.str "reviewer"])] else none
  publicKey item := if signingKid item = some "k1" then some "n1" else some "n2"
  ttl_pos := by norm_num

def issuerListing (kid : String) (doneAt : ℚ) : IssuerReply where
  discovery := some (.obj [("issuer", .str "https://id"), ("jwks_uri", .str "https://id/keys")])
  jwks := some (.obj [("keys", .arr [.obj [("kid", .str kid), ("kty", .str "RSA")]])])
  doneAt := doneAt

def earlyCall : VerifyCall := ⟨"t", 1, 1, issuerListing "k1" 2, issuerListing "k1" 2⟩

def afterCall : VerifyCall := ⟨"t", 400, 400, issuerListing "k2" 401, issuerListing "k2" 402⟩

/-- After the change the answers list no key `k1`. -/
theorem not_serves_late {doneAt : ℚ} (key : String) : ¬localVerifier.Serves (issuerListing "k2" doneAt) "k1" key := by
  rintro ⟨doc, keys, hdoc, hkeys, hfind⟩
  obtain rfl := Option.some.inj hdoc
  have hlisted : localVerifier.keysOf (.obj [("keys", .arr [.obj [("kid", .str "k2"), ("kty", .str "RSA")]])]) =
      some [("k2", "n2")] := by
    decide +kernel
  rw [hlisted] at hkeys
  obtain rfl := Option.some.inj hkeys
  cases hfind

theorem early_step : localVerifier.next .empty earlyCall = some (localVerifier.verify .empty earlyCall).1 :=
  if_pos (by decide +kernel)

theorem withdrawn_late :
    (localVerifier.verify (localVerifier.verify .empty earlyCall).1 afterCall).2 ≠ .ok ⟨"ada", {.reviewer}⟩ := by
  refine @withdrawn_rejected _ localVerifier _ [earlyCall] afterCall "k1" 100 _ (.snoc .nil early_step) (by decide +kernel)
    (by decide +kernel) ?_ (by decide +kernel)
  intro r hr htime key
  simp only [List.cons_append, List.nil_append, List.flatMap_cons, List.flatMap_nil, List.append_nil, VerifyCall.replies,
    List.mem_cons, List.not_mem_nil, or_false] at hr
  obtain rfl | rfl | rfl | rfl := hr
  · exact absurd htime (by decide +kernel)
  · exact absurd htime (by decide +kernel)
  · exact not_serves_late key
  · exact not_serves_late key

end

end InvoiceOps
