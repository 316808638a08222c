import Lasterm.Library.UrlPath

/-!
# The HTTP auth gate

The `onRequest` hooks of `server.ts`, in front of the handlers. The router has chosen the handler by
then: it reads the path off the request line and decodes it (`UrlPath.decodedPath`). The hooks look
at the path of the parsed URL (`UrlPath.pathname`), where percent-encoded characters stay encoded
and dot segments are gone.

The gate covers what the router serves exactly for the URLs on which the two paths ask for the same
(`covered_iff_seesRoute`): plain ones (`covered_of_plain`), but not `/%61pi/hosts`
(`encoded_path_not_covered`).

The refresh of a token's expiry and the log are left out, and so is CORS, which answers preflights
and lets everything else through.
-/

namespace Lasterm.Hub

open Shell UrlPath

/-! ## Tokens -/

structure AuthTokenRecord where
  id : String
  tokenHash : String
  label : String
  createdAt : String
  expiresAt : Option String
  revokedAt : Option String
  lastUsedAt : Option String

/-- The rows of `auth_tokens`. -/
abbrev AuthTokens := List AuthTokenRecord

section Tokens

variable (hashToken : Text → String)

def getTokenByValue (db : AuthTokens) (plaintextToken : Text) : Option AuthTokenRecord :=
  db.find? fun record ↦ record.tokenHash = hashToken plaintextToken

def validateTokenRecord (db : AuthTokens) (now : String) (plaintextToken : Text) :
    Option AuthTokenRecord :=
  match getTokenByValue hashToken db plaintextToken with
  | none => none
  | some record =>
    if record.revokedAt ≠ none then none
    else if record.expiresAt.any (· ≤ now) then none
    else some record

end Tokens

/-! ## Requests -/

structure HttpRequest where
  method : String
  url : Text
  authorization : Option Text
  /-- The first value of `x-lasterm-owner`. -/
  owner : Option Text
  ip : Text

structure HttpServer where
  bootAssetToken : Text
  ownerToken : Option Text
  db : Option AuthTokens
  now : String

structure Refusal where
  code : ℕ
  error : String
  message : String

def protectedPublicAssetPrefixes : List Text :=
  ["/public/fonts".toList, "/public/sounds".toList, "/public/wallpapers".toList]

/-- `isProtectedPublicAssetPath`. -/
def isProtectedPublicAssetPath (path : Text) : Bool :=
  protectedPublicAssetPrefixes.any fun start ↦
    path = start || (start ++ ['/']).isPrefixOf path

def assetTokenQueryParam : Text := "asset_token".toList

def isValidAssetToken (s : HttpServer) : Option Text → Bool
  | none => false
  | some candidate => candidate ≠ [] && candidate = s.bootAssetToken

def requestHasValidAssetToken (s : HttpServer) (r : HttpRequest) : Bool :=
  isValidAssetToken s (searchParam assetTokenQueryParam r.url)

def hasValidShutdownOwnerToken (s : HttpServer) (r : HttpRequest) : Bool :=
  s.ownerToken.isSome && r.owner = s.ownerToken

def isLoopbackAddress (ip : Text) : Bool :=
  ip = "127.0.0.1".toList || ip = "::1".toList || ip = "::ffff:127.0.0.1".toList ||
    "127.".toList.isPrefixOf ip

/-- What `authHeader.split(" ")` leaves to the check of the token. -/
def bearerToken (authHeader : Text) : Option Text :=
  match authHeader.splitOnP (· = ' ') with
  | scheme :: token :: _ => if scheme = "Bearer".toList ∧ token ≠ [] then some token else none
  | _ => none

/-! ## The hooks -/

def isShutdown (method : String) (path : Text) : Bool :=
  method = "POST" && (path = "/api/shutdown".toList || path = "/api/quit".toList)

/-- The early returns of the auth hook. -/
def isExempt (method : String) (path : Text) : Bool :=
  method = "OPTIONS" || path = "/api/health".toList || path = "/api/pair/verify".toList ||
    isShutdown method path || path = "/ws".toList || "/ws/".toList.isPrefixOf path ||
    ¬ "/api/".toList.isPrefixOf path

section Hooks

variable (s : HttpServer) (r : HttpRequest) (path : Text)

def assetHook : Except Refusal Unit :=
  if ¬ isProtectedPublicAssetPath path then .ok ()
  else if requestHasValidAssetToken s r then .ok ()
  else .error ⟨403, "ASSET_TOKEN_REQUIRED", "Valid asset token required"⟩

def ownerHook : Except Refusal Unit :=
  if ¬ isShutdown r.method path then .ok ()
  else if ¬ hasValidShutdownOwnerToken s r then
    .error ⟨401, "OWNER_TOKEN_REQUIRED", "Valid X-Lasterm-Owner header required"⟩
  else if ¬ isLoopbackAddress r.ip then
    .error ⟨403, "LOOPBACK_REQUIRED", "Shutdown is only accepted from loopback clients"⟩
  else .ok ()

variable (hashToken : Text → String)

/-- The end of the auth hook, where there is a token. -/
def checkToken (token : Text) : Except Refusal AuthTokenRecord :=
  match s.db with
  | none => .error ⟨500, "SERVER_ERROR", "Database unavailable"⟩
  | some db =>
    match validateTokenRecord hashToken db s.now token with
    | none => .error ⟨401, "AUTH_INVALID", "Invalid, expired, or revoked token"⟩
    | some record => .ok record

/-- The auth hook behind its early returns. -/
def requireToken : Except Refusal AuthTokenRecord :=
  if r.authorization.getD [] = [] then
    .error ⟨401, "AUTH_REQUIRED", "Authorization header required"⟩
  else
    match bearerToken (r.authorization.getD []) with
    | none => .error ⟨401, "AUTH_REQUIRED", "Authorization header must be: Bearer <token>"⟩
    | some token => checkToken s hashToken token

/-- The auth hook, with the record that it has accepted. -/
def authHook : Except Refusal (Option AuthTokenRecord) :=
  if isExempt r.method path then .ok none else (requireToken s r hashToken).map some

variable (hostOk : Text → Bool) (foreign : Text → Option Text)

/-- The hooks, in the order in which they were added. -/
def onRequest : Except Refusal (Option AuthTokenRecord) :=
  match pathname hostOk foreign r.url with
  | none => .error ⟨500, "Internal Server Error", "Invalid URL"⟩
  | some path => do
    assetHook s r path
    ownerHook s r path
    authHook s r path hashToken

inductive Served where
  | badPath
  | notFound
  | refused (why : Refusal)
  /-- The handler of a route runs, with the record that the auth hook has accepted. -/
  | handled (pattern : Text) (accepted : Option AuthTokenRecord)

/-- A request, where `router` says which route's pattern a decoded path matches. The hooks are in
front of the answer that there is no such route, too. -/
def serve (router : String → Text → Option Text) : Served :=
  match decodedPath r.url with
  | none => .badPath
  | some path =>
    match onRequest s r hashToken hostOk foreign with
    | .error why => .refused why
    | .ok accepted => (router r.method path).elim .notFound (.handled · accepted)

end Hooks

/-! ## What the gate is for -/

/-- The routes that are not for everyone. -/
def NeedsToken (method : String) (pattern : Text) : Prop :=
  "/api/".toList <+: pattern ∧ pattern ≠ "/api/health".toList ∧
    pattern ≠ "/api/pair/verify".toList ∧ isShutdown method pattern = false

/-- A bearer token of the request was found valid, with this record. -/
def Accepted (hashToken : Text → String) (s : HttpServer) (r : HttpRequest)
    (record : AuthTokenRecord) : Prop :=
  ∃ db token, s.db = some db ∧ bearerToken (r.authorization.getD []) = some token ∧
    validateTokenRecord hashToken db s.now token = some record

/-! ## What the hooks let through -/

section LetThrough

variable {s : HttpServer} {r : HttpRequest} {path : Text} {hashToken : Text → String}
  {hostOk : Text → Bool} {foreign : Text → Option Text} {accepted : Option AuthTokenRecord}

theorem assetHook_eq_ok : assetHook s r path = .ok () ↔
    (isProtectedPublicAssetPath path = true → requestHasValidAssetToken s r = true) := by
  rw [assetHook]
  cases isProtectedPublicAssetPath path with
  | false => simp
  | true => cases requestHasValidAssetToken s r <;> simp

theorem ownerHook_eq_ok : ownerHook s r path = .ok () ↔ (isShutdown r.method path = true →
    hasValidShutdownOwnerToken s r = true ∧ isLoopbackAddress r.ip = true) := by
  rw [ownerHook]
  cases isShutdown r.method path with
  | false => simp
  | true =>
    cases hasValidShutdownOwnerToken s r with
    | false => simp
    | true => cases isLoopbackAddress r.ip <;> simp

theorem checkToken_eq_ok {token : Text} {record : AuthTokenRecord} :
    checkToken s hashToken token = .ok record ↔
      ∃ db, s.db = some db ∧ validateTokenRecord hashToken db s.now token = some record := by
  rw [checkToken]
  cases s.db with
  | none => simp
  | some db => cases hvalid : validateTokenRecord hashToken db s.now token <;> simp [hvalid]

theorem requireToken_eq_ok {record : AuthTokenRecord} :
    requireToken s r hashToken = .ok record ↔ Accepted hashToken s r record := by
  rw [requireToken, Accepted]
  by_cases hempty : r.authorization.getD [] = []
  · rw [if_pos hempty, hempty]
    exact iff_of_false nofun fun ⟨_, _, _, hbearer, _⟩ ↦ nomatch hbearer
  · rw [if_neg hempty]
    cases hbearer : bearerToken (r.authorization.getD []) with
    | none => simp
    | some token => simp [checkToken_eq_ok]

theorem authHook_of_exempt (h : isExempt r.method path = true) :
    authHook s r path hashToken = .ok none := by
  rw [authHook, if_pos h]

theorem authHook_eq_ok (h : isExempt r.method path = false) :
    authHook s r path hashToken = .ok accepted ↔
      ∃ record, accepted = some record ∧ Accepted hashToken s r record := by
  rw [authHook, if_neg (by simp [h])]
  constructor
  · intro hok
    cases hrequired : requireToken s r hashToken with
    | error why =>
      rw [hrequired] at hok
      cases hok
    | ok record =>
      rw [hrequired] at hok
      cases hok
      exact ⟨record, rfl, requireToken_eq_ok.mp hrequired⟩
  · rintro ⟨record, rfl, haccepted⟩
    rw [requireToken_eq_ok.mpr haccepted]
    rfl

theorem onRequest_eq_ok :
    onRequest s r hashToken hostOk foreign = .ok accepted ↔
      ∃ path, pathname hostOk foreign r.url = some path ∧ assetHook s r path = .ok () ∧
        ownerHook s r path = .ok () ∧ authHook s r path hashToken = .ok accepted := by
  rw [onRequest]
  cases pathname hostOk foreign r.url with
  | none => simp
  | some path =>
    simp only [Option.some.injEq, exists_eq_left']
    cases assetHook s r path with
    | error why => exact iff_of_false nofun fun h ↦ nomatch h.1
    | ok u =>
      cases ownerHook s r path with
      | error why => exact iff_of_false nofun fun h ↦ nomatch h.2.1
      | ok v => exact ⟨fun h ↦ ⟨rfl, rfl, h⟩, fun h ↦ h.2.2⟩

theorem serve_eq_handled {router : String → Text → Option Text} {pattern : Text} :
    serve s r hashToken hostOk foreign router = .handled pattern accepted ↔
      ∃ decoded, decodedPath r.url = some decoded ∧ router r.method decoded = some pattern ∧
        onRequest s r hashToken hostOk foreign = .ok accepted := by
  rw [serve]
  cases decodedPath r.url with
  | none => simp
  | some decoded =>
    simp only [Option.some.injEq, exists_eq_left']
    cases onRequest s r hashToken hostOk foreign with
    | error why => simp
    | ok record => cases router r.method decoded <;> simp

end LetThrough

variable (hashToken : Text → String) (hostOk : Text → Bool) (foreign : Text → Option Text)
  (router : String → Text → Option Text)

/-- What a handler may rely on. -/
def Covered (s : HttpServer) (r : HttpRequest) : Prop :=
  ∀ pattern accepted, serve s r hashToken hostOk foreign router = .handled pattern accepted →
    (r.method ≠ "OPTIONS" → NeedsToken r.method pattern →
      ∃ record, accepted = some record ∧ Accepted hashToken s r record) ∧
    (isProtectedPublicAssetPath pattern = true → requestHasValidAssetToken s r = true)

/-- The path that the hooks see asks for what the route needs. An asset path lets nobody through
without an asset token in the query. -/
def SeesRoute (method : String) (url : Text) : Prop :=
  ∀ decoded pattern path, decodedPath url = some decoded → router method decoded = some pattern →
    pathname hostOk foreign url = some path →
    (isProtectedPublicAssetPath path = true →
      (searchParam assetTokenQueryParam url).getD [] ≠ []) →
    (method ≠ "OPTIONS" → NeedsToken method pattern → isExempt method path = false) ∧
    (isProtectedPublicAssetPath pattern = true → isProtectedPublicAssetPath path = true)

/-! ## Requests with every credential -/

/-- A token that is valid for ever. -/
def lastingToken : AuthTokenRecord where
  id := "primary"
  tokenHash := hashToken ['t']
  label := "Primary"
  createdAt := ""
  expiresAt := none
  revokedAt := none
  lastUsedAt := none

def openServer (bootAssetToken : Text) : HttpServer where
  bootAssetToken
  ownerToken := some ['o']
  db := some [lastingToken hashToken]
  now := ""

def fullRequest (method : String) (url : Text) : HttpRequest where
  method
  url
  authorization := some "Bearer t".toList
  owner := some ['o']
  ip := "127.0.0.1".toList

variable {hashToken hostOk foreign router} {method : String} {url boot path : Text}

theorem accepted_fullRequest :
    Accepted hashToken (openServer hashToken boot) (fullRequest method url)
      (lastingToken hashToken) := by
  have hbearer : bearerToken "Bearer t".toList = some ['t'] := by decide
  refine ⟨[lastingToken hashToken], ['t'], rfl, hbearer, ?_⟩
  have hfound : getTokenByValue hashToken [lastingToken hashToken] ['t'] =
      some (lastingToken hashToken) := List.find?_cons_of_pos (decide_eq_true rfl)
  rw [validateTokenRecord, hfound]
  rfl

/-- With every credential only the asset hook can refuse. -/
theorem exists_onRequest_eq_ok (hpath : pathname hostOk foreign url = some path)
    (hasset : isProtectedPublicAssetPath path = true →
      requestHasValidAssetToken (openServer hashToken boot) (fullRequest method url) = true) :
    ∃ accepted, onRequest (openServer hashToken boot) (fullRequest method url) hashToken hostOk
        foreign = .ok accepted ∧ (isExempt method path = true → accepted = none) := by
  have hlocal : isLoopbackAddress "127.0.0.1".toList = true := by decide
  have howner : ownerHook (openServer hashToken boot) (fullRequest method url) path = .ok () :=
    ownerHook_eq_ok.mpr fun _ ↦
      ⟨by simp [hasValidShutdownOwnerToken, openServer, fullRequest], hlocal⟩
  cases hexempt : isExempt method path with
  | true =>
    exact ⟨none, onRequest_eq_ok.mpr ⟨path, hpath, assetHook_eq_ok.mpr hasset, howner,
      authHook_of_exempt hexempt⟩, fun _ ↦ rfl⟩
  | false =>
    have hneeds : isExempt (fullRequest method url).method path = false := hexempt
    exact ⟨some (lastingToken hashToken), onRequest_eq_ok.mpr ⟨path, hpath,
      assetHook_eq_ok.mpr hasset, howner, (authHook_eq_ok hneeds).mpr
        ⟨_, rfl, accepted_fullRequest⟩⟩, nofun⟩

/-! ## The two paths -/

theorem covered_of_seesRoute {s : HttpServer} {r : HttpRequest}
    (h : SeesRoute hostOk foreign router r.method r.url) :
    Covered hashToken hostOk foreign router s r := by
  intro pattern accepted hserve
  obtain ⟨decoded, hdecoded, hrouter, honRequest⟩ := serve_eq_handled.mp hserve
  obtain ⟨path, hpath, hassetHook, -, hauthHook⟩ := onRequest_eq_ok.mp honRequest
  have hasset := assetHook_eq_ok.mp hassetHook
  have hquery : isProtectedPublicAssetPath path = true →
      (searchParam assetTokenQueryParam r.url).getD [] ≠ [] := by
    intro hprotected hempty
    have hvalid := hasset hprotected
    rw [requestHasValidAssetToken] at hvalid
    cases hparam : searchParam assetTokenQueryParam r.url with
    | none =>
      rw [hparam] at hvalid
      cases hvalid
    | some candidate =>
      rw [hparam] at hvalid hempty
      rw [show candidate = [] from hempty] at hvalid
      cases hvalid
  obtain ⟨htoken, hassetRoute⟩ := h decoded pattern path hdecoded hrouter hpath hquery
  exact ⟨fun hmethod hneeds ↦ (authHook_eq_ok (htoken hmethod hneeds)).mp hauthHook,
    fun hprotected ↦ hasset (hassetRoute hprotected)⟩

theorem requestHasValidAssetToken_openServer
    (h : (searchParam assetTokenQueryParam url).getD [] ≠ []) :
    requestHasValidAssetToken
      (openServer hashToken ((searchParam assetTokenQueryParam url).getD []))
      (fullRequest method url) = true := by
  have hurl : (fullRequest method url).url = url := rfl
  rw [requestHasValidAssetToken, hurl]
  cases hparam : searchParam assetTokenQueryParam url with
  | none =>
    rw [hparam] at h
    exact absurd rfl h
  | some candidate =>
    rw [hparam] at h
    have hne : candidate ≠ [] := h
    simp [isValidAssetToken, openServer, hne]

theorem not_requestHasValidAssetToken_nil {r : HttpRequest} :
    requestHasValidAssetToken (openServer hashToken []) r = false := by
  rw [requestHasValidAssetToken]
  cases searchParam assetTokenQueryParam r.url with
  | none => rfl
  | some candidate => cases candidate <;> rfl

theorem seesRoute_of_covered (h : ∀ s r, r.method = method → r.url = url →
    Covered hashToken hostOk foreign router s r) :
    SeesRoute hostOk foreign router method url := by
  intro decoded pattern path hdecoded hrouter hpath hquery
  constructor
  · intro hmethod hneeds
    by_contra hexempt
    have hasset : isProtectedPublicAssetPath path = true → requestHasValidAssetToken
        (openServer hashToken ((searchParam assetTokenQueryParam url).getD []))
        (fullRequest method url) = true :=
      fun hprotected ↦ requestHasValidAssetToken_openServer (hquery hprotected)
    obtain ⟨accepted, hok, hnone⟩ := exists_onRequest_eq_ok hpath hasset
    have hserve := serve_eq_handled.mpr ⟨decoded, hdecoded, hrouter, hok⟩
    obtain ⟨record, haccepted, -⟩ := (h _ _ rfl rfl pattern accepted hserve).1 hmethod hneeds
    rw [hnone (eq_true_of_ne_false hexempt)] at haccepted
    cases haccepted
  · intro hpattern
    by_contra hprotected
    have hasset : isProtectedPublicAssetPath path = true → requestHasValidAssetToken
        (openServer hashToken []) (fullRequest method url) = true := fun h ↦ absurd h hprotected
    obtain ⟨accepted, hok, -⟩ := exists_onRequest_eq_ok hpath hasset
    have hserve := serve_eq_handled.mpr ⟨decoded, hdecoded, hrouter, hok⟩
    have hvalid := (h _ _ rfl rfl pattern accepted hserve).2 hpattern
    rw [not_requestHasValidAssetToken_nil] at hvalid
    cases hvalid

/-- **The gate covers a method and a URL exactly where the hooks see the path of the route.** -/
theorem covered_iff_seesRoute (hashToken : Text → String) (hostOk : Text → Bool)
    (foreign : Text → Option Text) (router : String → Text → Option Text) (method : String)
    (url : Text) :
    (∀ s r, r.method = method → r.url = url → Covered hashToken hostOk foreign router s r) ↔
      SeesRoute hostOk foreign router method url := by
  refine ⟨seesRoute_of_covered, ?_⟩
  rintro h s r rfl rfl
  exact covered_of_seesRoute h

/-- The route of the hosts. -/
def hostsRouter (method : String) (path : Text) : Option Text :=
  if method = "GET" ∧ path = "/api/hosts".toList then some path else none

/-- A request from anywhere, without a token. -/
def strayRequest : HttpRequest where
  method := "GET"
  url := "/%61pi/hosts".toList
  authorization := none
  owner := none
  ip := "192.0.2.7".toList

/-- With one letter encoded, the router serves the hosts without a token. -/
theorem encoded_path_not_covered :
    ¬ Covered String.ofList (fun _ ↦ true) (fun _ ↦ none) hostsRouter
      (openServer String.ofList ['b']) strayRequest := by
  intro h
  have hdecoded : decodedPath strayRequest.url = some "/api/hosts".toList := by decide +kernel
  have hrouter : hostsRouter "GET" "/api/hosts".toList = some "/api/hosts".toList := by decide
  have hpath : pathname (fun _ ↦ true) (fun _ ↦ none) strayRequest.url =
      some "/%61pi/hosts".toList := by decide +kernel
  have hasset : assetHook (openServer String.ofList ['b']) strayRequest "/%61pi/hosts".toList =
      .ok () := assetHook_eq_ok.mpr fun h ↦ absurd h (by decide)
  have howner : ownerHook (openServer String.ofList ['b']) strayRequest "/%61pi/hosts".toList =
      .ok () := ownerHook_eq_ok.mpr fun h ↦ absurd h (by decide)
  have hexempt : isExempt "GET" "/%61pi/hosts".toList = true := by decide
  have hserve : serve (openServer String.ofList ['b']) strayRequest String.ofList (fun _ ↦ true)
      (fun _ ↦ none) hostsRouter = .handled "/api/hosts".toList none :=
    serve_eq_handled.mpr ⟨_, hdecoded, hrouter,
      onRequest_eq_ok.mpr ⟨_, hpath, hasset, howner, authHook_of_exempt hexempt⟩⟩
  have hneeds : NeedsToken "GET" "/api/hosts".toList :=
    ⟨by decide, by decide, by decide, by decide⟩
  obtain ⟨record, haccepted, -⟩ := (h _ _ hserve).1 (by decide) hneeds
  cases haccepted

/-! ## Plain URLs -/

/-- No path that leads to a protected route is exempt, and none that leads to a protected asset is
without protection. -/
def Faithful (router : String → Text → Option Text) (method : String) : Prop :=
  ∀ path pattern, router method path = some pattern →
    (method ≠ "OPTIONS" → NeedsToken method pattern → isExempt method path = false) ∧
    (isProtectedPublicAssetPath pattern = true → isProtectedPublicAssetPath path = true)

theorem covered_of_plain {segments : List Text} {c : Char} {segment rest : Text}
    {s : HttpServer} {r : HttpRequest} (hrouter : Faithful router r.method)
    (h : ∀ segment' ∈ (c :: segment) :: segments, PlainSegment segment') (hrest : IsRest rest)
    (hurl : r.url = serialize ((c :: segment) :: segments) ++ rest) :
    Covered hashToken hostOk foreign router s r := by
  apply covered_of_seesRoute
  intro decoded pattern path hdecoded hfound hpath _
  rw [hurl, decodedPath_of_plain h hrest] at hdecoded
  rw [hurl, pathname_of_plain hostOk foreign h hrest] at hpath
  cases hdecoded
  cases hpath
  exact hrouter _ _ hfound

theorem covered_of_plain_strayRequest :
    Covered String.ofList (fun _ ↦ true) (fun _ ↦ none) hostsRouter (openServer String.ofList ['b'])
      { strayRequest with url := "/api/hosts?x=1".toList } := by
  refine @covered_of_plain _ _ _ _ ["hosts".toList] 'a' "pi".toList "?x=1".toList _ _ ?_ ?_ ?_ rfl
  · intro path pattern hfound
    obtain ⟨⟨-, rfl⟩, hpath⟩ := Option.ite_none_right_eq_some.mp hfound
    cases hpath
    exact ⟨fun _ _ ↦ by decide, fun h ↦ h⟩
  · intro segment hsegment
    simp only [List.mem_cons, List.not_mem_nil, or_false] at hsegment
    rcases hsegment with rfl | rfl <;> exact ⟨by decide, by decide, by decide⟩
  · intro c hc
    cases hc
    rfl

end Lasterm.Hub
