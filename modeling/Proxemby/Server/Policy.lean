import Mathlib.Data.Set.Basic
import Proxemby.Server.Gate
import Proxemby.Server.Sessions

/-!
# The access policy

What a process lets through to its upstreams, said without handlers, stores and registries:
the route of each token, and the hosts of each route.  Logins, logouts and rewritten answers
change the policy, and a process decides every request like the policy after its history.
-/

namespace Proxemby

open Utf8

/-- What a process decides requests by.  Without a secret nobody needs a token. -/
@[ext] structure Policy where
  secret : Option Bytes
  grants : Str → Option Str
  hosts : Str → Set Str

namespace Policy

inductive Event where
  | login (token route : Str)
  | logout (token : Str)
  | taught (route : Str) (hosts : Set Str)

def apply (policy : Policy) : Event → Policy
  | .login token route =>
      { policy with grants := Function.update policy.grants token (some route) }
  | .logout token => { policy with grants := Function.update policy.grants token none }
  | .taught route hosts =>
      { policy with hosts := Function.update policy.hosts route (policy.hosts route ∪ hosts) }

/-- The policy as a machine that is told what each step of a process reports. -/
def machine : Machine Policy (List Event) Empty where
  step policy events := (events.foldl apply policy, [])

variable (crates : Crates) (policy : Policy) (proxy : RouteProxy) (req : Request)

/-- The request comes with a token of the route. -/
def Holds : Prop :=
  ∃ token, requestToken req.headers req.query = some token ∧
    policy.grants token = some proxy.routeKey

/-- The signature in front of the scheme is one of this route, scheme and host. -/
def Signs (secret : Bytes) (parts : ResourceParts) : Prop :=
  ∃ decoded, crates.urlSafeDecode parts.first = some decoded ∧ decoded.length = 16 ∧
    (Store.mac crates.toStoreCrates secret
      [proxy.routeKey, parts.scheme, parts.host]).take 16 = decoded

/-- A request for a resource goes to a host of the route, and comes with a token or in the
signed form. -/
structure AdmitsResource (parts : ResourceParts) : Prop where
  cut : resourceParts policy.secret.isSome req.path = .ok parts
  authorized : ∀ secret, policy.secret = some secret →
    if isHttpScheme parts.first then policy.Holds proxy req else Signs crates proxy secret parts
  host : parts.host ∈ policy.hosts proxy.routeKey
  uri : (crates.parseUri (parts.target req.query)).isSome = true

/-- Any other request goes to a public endpoint, or comes with a token; the list of users is
never asked for. -/
structure AdmitsUpstream : Prop where
  uri : (crates.parseUri (proxy.upstreamTarget req)).isSome = true
  authorized : policy.secret.isSome = true →
    matchSegments (embyPathSegments req.path) ["users", "public"] = false ∧
      (isPublicEmbyPath req.method (embyPathSegments req.path) = true ∨ policy.Holds proxy req)

/-- The policy lets a request through. -/
def Admits : Prop :=
  if resourcePrefix.isPrefixOf req.path then
    ∃ parts, policy.AdmitsResource crates proxy req parts
  else policy.AdmitsUpstream crates proxy req

end Policy

/-! ## What a handler lets through -/

/-- Whether a handler sends its request on. -/
def Flow.isSent : Flow → Bool
  | .answer _ => false
  | .send .. => true

@[simp] theorem Flow.isSent_answer (response : Response) : (answer response).isSent = false := rfl

@[simp] theorem Flow.isSent_send (client : Client) (out : OutRequest) (task : Task) :
    (send client out task).isSent = true := rfl

/-- The route that a token belongs to. -/
def Store.routeOf (store : Store) (token : Str) : Option Str :=
  (store.lookup token).map (·.route)

theorem Store.isValid_iff_routeOf {store : Store} {token route : Str} :
    store.isValid token route = true ↔ store.routeOf token = some route := by
  rw [isValid_iff, routeOf, lookup, Option.map_eq_some_iff]
  by_cases empty : token = []
  · simp [empty]
  · simp [empty]

/-- The policy of a store and the registries of the routes. -/
def Policy.of (auth : Option Store) (registries : Str → Registry) : Policy where
  secret := auth.map (·.secret)
  grants token := auth.bind (·.routeOf token)
  hosts key := {host | (registries key).Allows host}

def State.policy (state : State) : Policy := .of state.auth state.registries

theorem State.secret_isSome (state : State) :
    state.policy.secret.isSome = state.auth.isSome := Option.isSome_map

namespace RouteProxy

variable {crates : Crates} {proxy : RouteProxy} {state : State} {req : Request}

theorem holds_iff {store : Store} (auth : state.auth = some store) :
    state.policy.Holds proxy req ↔
      store.isValid ((requestToken req.headers req.query).getD []) proxy.routeKey = true := by
  simp only [Policy.Holds, State.policy, Policy.of, auth, Option.bind_some,
    ← Store.isValid_iff_routeOf]
  cases requestToken req.headers req.query with
  | none => simp [Store.isValid]
  | some token => simp

theorem signs_iff {store : Store} {parts : ResourceParts} :
    Policy.Signs crates proxy store.secret parts ↔
      store.verify crates.toStoreCrates parts.first
        [proxy.routeKey, parts.scheme, parts.host] = true := by
  rw [Policy.Signs, Store.verify]
  cases crates.urlSafeDecode parts.first with
  | none => simp only [reduceCtorEq, false_and, exists_false, Bool.false_eq_true]
  | some decoded =>
      simp only [Option.some.injEq, exists_eq_left', Bool.and_eq_true, decide_eq_true_eq]

theorem proxyUpstream_isSent {auth : Option Store} {conn : ConnInfo} {logout : Option Str} :
    (proxy.proxyUpstream crates auth req conn logout).isSent =
      (crates.parseUri (proxy.upstreamTarget req)).isSome := by
  rw [proxyUpstream]
  dsimp only
  split
  · next refused => rw [refused, Option.isSome_none, Flow.isSent_answer]
  · next path parsed => rw [parsed, Option.isSome_some, Flow.isSent_send]

theorem resourceAuthorized_iff {parts : ResourceParts} :
    proxy.resourceAuthorized crates state.auth req parts = true ↔
      ∀ secret, state.policy.secret = some secret →
        if isHttpScheme parts.first then state.policy.Holds proxy req
        else Policy.Signs crates proxy secret parts := by
  cases auth : state.auth with
  | none => simp [resourceAuthorized, State.policy, Policy.of, auth]
  | some store =>
      have same : state.policy.secret = some store.secret := by simp [State.policy, Policy.of, auth]
      simp only [resourceAuthorized, same, Option.some.injEq, forall_eq', holds_iff auth,
        signs_iff]
      split <;> rfl

/-- What the policy asks of a resource request whose path is cut. -/
theorem admitsResource_of_cut {parts : ResourceParts}
    (cut : resourceParts state.auth.isSome req.path = .ok parts) :
    (∃ parts, state.policy.AdmitsResource crates proxy req parts) ↔
      proxy.resourceAuthorized crates state.auth req parts = true ∧
        ((state.registries proxy.routeKey).lookup parts.host).isSome = true ∧
        (crates.parseUri (parts.target req.query)).isSome = true := by
  rw [← state.secret_isSome] at cut
  rw [resourceAuthorized_iff, Option.isSome_iff_exists]
  constructor
  · rintro ⟨other, admits⟩
    have same := admits.cut
    rw [cut, Except.ok.injEq] at same
    subst same
    exact ⟨admits.authorized, admits.host, admits.uri⟩
  · rintro ⟨authorized, host, uri⟩
    exact ⟨parts, cut, authorized, host, uri⟩

theorem proxyResource_isSent {world : World} (auth : world.auth = state.auth)
    (registry : world.registry = state.registries proxy.routeKey) :
    (proxy.proxyResource crates world req).isSent = true ↔
      ∃ parts, state.policy.AdmitsResource crates proxy req parts := by
  rw [proxyResource]
  split
  · next message cut =>
      refine iff_of_false (by simp) ?_
      rintro ⟨parts, admits⟩
      have other := admits.cut
      rw [state.secret_isSome, ← auth, cut] at other
      cases other
  · next parts cut =>
      rw [auth] at cut
      rw [admitsResource_of_cut cut, ← auth, ← registry]
      split
      · next refused =>
          rw [Bool.not_eq_true'] at refused
          simp [refused]
      · next authorized =>
          rw [Bool.not_eq_true, Bool.not_eq_false'] at authorized
          split
          · next unknown => simp [Option.isNone_iff_eq_none.mp unknown]
          · next known =>
              rw [← Option.not_isSome, Bool.not_eq_true, Bool.not_eq_false'] at known
              dsimp only
              split <;> next result => simp [authorized, known, result]

/-- What the policy asks of any other request when there are allowed users. -/
theorem admitsUpstream_iff {store : Store} (auth : state.auth = some store) :
    state.policy.AdmitsUpstream crates proxy req ↔
      (crates.parseUri (proxy.upstreamTarget req)).isSome = true ∧
        matchSegments (embyPathSegments req.path) ["users", "public"] = false ∧
        (isPublicEmbyPath req.method (embyPathSegments req.path) = true ∨
          store.isValid ((requestToken req.headers req.query).getD []) proxy.routeKey = true) := by
  have users : state.policy.secret.isSome = true := by
    rw [state.secret_isSome, auth, Option.isSome_some]
  rw [← holds_iff auth]
  constructor
  · intro admits
    exact ⟨admits.uri, admits.authorized users⟩
  · rintro ⟨uri, authorized⟩
    exact ⟨uri, fun _ => authorized⟩

/-- With allowed users set, a handler sends exactly what the policy admits. -/
theorem handleWithAuth_isSent {store : Store} (auth : state.auth = some store) (env : Env)
    (conn : ConnInfo) :
    (proxy.handleWithAuth crates (state.world proxy.routeKey) store env req conn).flow.isSent =
        true ↔ state.policy.Admits crates proxy req := by
  rw [handleWithAuth, Policy.Admits]
  split
  · exact proxyResource_isSent rfl rfl
  · rw [admitsUpstream_iff auth]
    dsimp only
    split
    · next list => simp [list]
    · next other =>
        rw [Bool.not_eq_true] at other
        split
        · next isPublic => simp [other, isPublic, proxyUpstream_isSent]
        · next closed =>
            split
            · next absent => simp [closed, absent, Store.isValid]
            · next token sent =>
                split
                · next valid =>
                    simp only [sent, Option.getD_some, valid, or_true, and_true, other]
                    rw [← @proxyUpstream_isSent crates proxy req
                      (state.world proxy.routeKey).auth conn
                      (if matchSegments (embyPathSegments req.path) ["sessions", "logout"] then
                        some token else none)]
                    split <;> next result => simp [result]
                · next invalid => simp [closed, sent, invalid]

/-- A handler sends exactly what the client filter and the policy let through. -/
theorem handleChecked_isSent (env : Env) (conn : ConnInfo) :
    (proxy.handleChecked crates (state.world proxy.routeKey) env req conn).flow.isSent = true ↔
      proxy.filterClient crates req conn = false ∧ state.policy.Admits crates proxy req := by
  rw [handleChecked]
  split
  · next rejected => simp [rejected]
  · next passed =>
      simp only [Bool.not_eq_true] at passed
      simp only [passed, true_and]
      split
      · next store auth => exact handleWithAuth_isSent auth env conn
      · next auth =>
          have noSecret : state.policy.secret = none := by
            rw [← Option.not_isSome_iff_eq_none, state.secret_isSome]
            simpa [State.world] using auth
          rw [routeRequest, Policy.Admits]
          split
          · exact proxyResource_isSent rfl rfl
          · rw [proxyUpstream_isSent]
            exact ⟨fun uri => ⟨uri, by simp [noSecret]⟩, fun admits => admits.uri⟩

end RouteProxy

/-! ## What a step reports -/

namespace Policy

theorem of_login {store : Store} {token : Str} (named : token ≠ []) (session : Session)
    (registries : Str → Registry) :
    Policy.of (some { store with sessions := store.sessions.insert token session }) registries =
      (Policy.of (some store) registries).apply (.login token session.route) := by
  ext1
  · rfl
  · funext other
    simp only [Policy.of, apply, Option.bind_some, Store.routeOf, Store.lookup]
    by_cases same : other = token
    · subst same
      simp [named]
    · simp [same, Finmap.lookup_insert_of_ne]
  · rfl

theorem of_logout (store : Store) (token : Str) (registries : Str → Registry) :
    Policy.of (some { store with sessions := store.sessions.erase token }) registries =
      (Policy.of (some store) registries).apply (.logout token) := by
  ext1
  · rfl
  · funext other
    simp only [Policy.of, apply, Option.bind_some, Store.routeOf, Store.lookup]
    by_cases same : other = token
    · subst same
      simp
    · simp [same, Finmap.lookup_erase_ne]
  · rfl

theorem of_taught {registry learned : Registry} {hosts : Set Str}
    (learns : ∀ host, learned.Allows host ↔ registry.Allows host ∨ host ∈ hosts)
    (auth : Option Store) {registries : Str → Registry} {key : Str}
    (same : registries key = registry) :
    Policy.of auth (Function.update registries key learned) =
      (Policy.of auth registries).apply (.taught key hosts) := by
  ext1
  · rfl
  · rfl
  · funext other
    ext host
    by_cases equal : other = key
    · simp [Policy.of, apply, equal, same, learns]
    · simp [Policy.of, apply, equal]

end Policy

namespace RouteProxy

variable (crates : Crates) (proxy : RouteProxy)

/-- The login that a route accepts on the answer of its upstream. -/
def acceptedLogin (task : UpstreamTask) (result : SendResult) : Option LoginReply :=
  match result with
  | .reply reply =>
      if isLoginPath task.req.path && reply.status = 200 then
        match proxy.readBody crates { reply with headers := removeHopByHop reply.headers } with
        | .error _ => none
        | .ok body =>
            let login := LoginReply.ofJson ((crates.parseJson body).getD .null)
            if login.token ≠ [] ∧ crates.toLowercase login.userName ∈ proxy.allowedUsers then
              some login
            else none
      else none
  | _ => none

/-- The body that the rewriter of a route gets. -/
def rewriterBody (users : Bool) (task : UpstreamTask) (result : SendResult) : Option Bytes :=
  match result with
  | .reply reply =>
      if isPlaybackInfoPath task.req.path && !(users && isLoginPath task.req.path) &&
          reply.status ≠ 101 && isJsonContentType (removeHopByHop reply.headers) then
        (proxy.readBody crates
          { reply with headers := removeHopByHop reply.headers }).toOption
      else none
  | _ => none

/-- The token of a logout that cannot be sent. -/
def failedLogout (auth : Option Store) (req : Request) (conn : ConnInfo) : Option Str :=
  match auth, requestToken req.headers req.query with
  | some store, some token =>
      if !proxy.filterClient crates req conn && !resourcePrefix.isPrefixOf req.path &&
          matchSegments (embyPathSegments req.path) ["sessions", "logout"] &&
          store.isValid token proxy.routeKey &&
          (crates.parseUri (proxy.upstreamTarget req)).isNone then some token
      else none
  | _, _ => none

/-- What the answer of an upstream changes. -/
def reports (users : Bool) (task : UpstreamTask) (result : SendResult) : List Policy.Event :=
  (if users then
      (proxy.acceptedLogin crates task result).toList.map fun login =>
        .login login.token proxy.routeKey
    else []) ++
  ((proxy.rewriterBody crates users task result).toList.map fun body =>
    .taught proxy.routeKey {host | Teaches body host}) ++
  if users then task.logout.toList.map .logout else []

variable {crates proxy}

theorem acceptedLogin_eq_some {task : UpstreamTask} {result : SendResult} {login : LoginReply} :
    proxy.acceptedLogin crates task result = some login ↔
      proxy.AcceptsLogin crates task result login := by
  constructor
  · intro accepted
    unfold acceptedLogin at accepted
    split at accepted
    · next reply =>
        split at accepted
        · next answers =>
            rw [Bool.and_eq_true, decide_eq_true_eq] at answers
            split at accepted
            · cases accepted
            · next body read =>
                dsimp only at accepted
                split at accepted
                · next known =>
                    obtain rfl := Option.some.inj accepted
                    exact ⟨answers.1, known.1, known.2, reply, body, rfl, answers.2, read, rfl⟩
                · cases accepted
        · cases accepted
    · cases accepted
  · rintro ⟨path, named, user, reply, body, rfl, status, read, parsed⟩
    subst parsed
    have answers : (isLoginPath task.req.path && decide (reply.status = 200)) = true := by
      simp [path, status]
    simp only [acceptedLogin, answers, if_true, read]
    rw [if_pos ⟨named, user⟩]

theorem rewriterBody_eq_some {auth : Option Store} {task : UpstreamTask} {result : SendResult}
    {body : Bytes} : proxy.rewriterBody crates auth.isSome task result = some body ↔
      proxy.RunsRewriter crates auth task result body := by
  constructor
  · intro runs
    unfold rewriterBody at runs
    split at runs
    · next reply =>
        split at runs
        · next answers =>
            simp only [Bool.and_eq_true, Bool.not_eq_true', Bool.and_eq_false_imp,
              decide_eq_true_eq] at answers
            obtain ⟨⟨⟨path, notLogin⟩, status⟩, json⟩ := answers
            refine ⟨path, notLogin, reply, rfl, by simpa using status, json, ?_⟩
            cases read : proxy.readBody crates
                { reply with headers := removeHopByHop reply.headers } with
            | error e =>
                rw [read] at runs
                cases runs
            | ok found =>
                rw [read] at runs
                rw [Option.some.inj runs]
        · cases runs
    · cases runs
  · rintro ⟨path, notLogin, reply, rfl, status, json, read⟩
    have other : (auth.isSome && isLoginPath task.req.path) = false := by
      simpa using notLogin
    simp [rewriterBody, path, other, status, json, read, Except.toOption]

/-- A body teaches a registry exactly the hosts of its rewritten URLs. -/
theorem learned_allows_iff {registry : Registry} {body : Bytes} {host : Str} :
    (proxy.learned crates registry body).Allows host ↔
      registry.Allows host ∨ Teaches body host := by
  have learns := @learned_allows crates proxy registry body host
  refine ⟨learns.2, ?_⟩
  rintro (before | ⟨text, items, item, url, decoded, found, among, parts, rfl⟩)
  · exact learns.1 before
  · obtain ⟨⟨registry', out, events⟩, ran⟩ := Option.isSome_iff_exists.mp
      (proxy.rewriter.rewritePlaybackInfo_isSome crates.toJson registry body)
    have same : proxy.learned crates registry body = registry' := by simp [learned, ran]
    rw [same]
    exact proxy.rewriter.rewritePlaybackInfo_teaches crates.toJson ran decoded found among parts

theorem upstreamReply_auth (world : World) (env : Env) (task : UpstreamTask)
    (result : SendResult) :
    (proxy.upstreamReply crates world env task result).world.auth =
      match proxy.acceptedLogin crates task result with
      | none => world.auth
      | some login => world.auth.map fun store =>
          { store with
            sessions := store.sessions.insert login.token (proxy.sessionOf env login) } := by
  cases accepted : proxy.acceptedLogin crates task result with
  | some login =>
      cases auth : world.auth with
      | none =>
          have same := (proxy.upstreamReply_change crates world env task result).identity
          rwa [auth, Option.map_none, Option.map_eq_none_iff] at same
      | some store => exact upstreamReply_of_accepts auth env (acceptedLogin_eq_some.mp accepted)
  | none =>
      have change := proxy.upstreamReply_change crates world env task result
      generalize (proxy.upstreamReply crates world env task result).world = changed at change ⊢
      cases change with
      | same idle => rfl
      | learn runs => rfl
      | login auth accepts saved =>
          rw [acceptedLogin_eq_some.mpr accepts] at accepted
          cases accepted

theorem upstreamReply_registry (world : World) (env : Env) (task : UpstreamTask)
    (result : SendResult) :
    (proxy.upstreamReply crates world env task result).world.registry =
      match proxy.rewriterBody crates world.auth.isSome task result with
      | none => world.registry
      | some body => proxy.learned crates world.registry body := by
  cases runs : proxy.rewriterBody crates world.auth.isSome task result with
  | some body => rw [proxy.upstreamReply_of_runs crates world env (rewriterBody_eq_some.mp runs)]
  | none =>
      have change := proxy.upstreamReply_change crates world env task result
      generalize (proxy.upstreamReply crates world env task result).world = changed at change ⊢
      cases change with
      | same idle => rfl
      | login auth accepts saved => rfl
      | learn rewrites =>
          rw [rewriterBody_eq_some.mpr rewrites] at runs
          cases runs

theorem removeSession_auth (world : World) (env : Env) (logout : Option Str) :
    (removeSession crates world env logout).auth =
      match logout with
      | none => world.auth
      | some token => world.auth.map fun store =>
          { store with sessions := store.sessions.erase token } := by
  cases logout with
  | none => rfl
  | some token =>
      cases auth : world.auth with
      | none => simp [removeSession, auth]
      | some store => simp [removeSession, auth, Store.remove_fst]

theorem policy_login (world : World) (env : Env) (task : UpstreamTask) (result : SendResult)
    (registries : Str → Registry) :
    Policy.of (proxy.upstreamReply crates world env task result).world.auth registries =
      (if world.auth.isSome then
        (proxy.acceptedLogin crates task result).toList.map fun login =>
          Policy.Event.login login.token proxy.routeKey
      else []).foldl Policy.apply (.of world.auth registries) := by
  rw [upstreamReply_auth]
  cases accepted : proxy.acceptedLogin crates task result with
  | none => simp
  | some login =>
      cases world.auth with
      | none => rfl
      | some store =>
          exact Policy.of_login (acceptedLogin_eq_some.mp accepted).token
            (proxy.sessionOf env login) registries

theorem policy_taught (world : World) (env : Env) (task : UpstreamTask) (result : SendResult)
    (auth : Option Store) {registries : Str → Registry}
    (own : registries proxy.routeKey = world.registry) :
    Policy.of auth (Function.update registries proxy.routeKey
        (proxy.upstreamReply crates world env task result).world.registry) =
      ((proxy.rewriterBody crates world.auth.isSome task result).toList.map fun body =>
        Policy.Event.taught proxy.routeKey {host | Teaches body host}).foldl Policy.apply
          (.of auth registries) := by
  rw [upstreamReply_registry]
  cases proxy.rewriterBody crates world.auth.isSome task result with
  | none => simp [← own]
  | some body => exact Policy.of_taught (fun host => learned_allows_iff) auth own

theorem policy_logout (world : World) (env : Env) (logout : Option Str)
    (registries : Str → Registry) :
    Policy.of (removeSession crates world env logout).auth registries =
      (if world.auth.isSome then logout.toList.map Policy.Event.logout else []).foldl
        Policy.apply (.of world.auth registries) := by
  rw [removeSession_auth]
  cases logout with
  | none => simp
  | some token =>
      cases world.auth with
      | none => rfl
      | some store => exact Policy.of_logout store token registries

theorem failedLogout_eq_some {auth : Option Store} {req : Request} {conn : ConnInfo}
    {token : Str} : proxy.failedLogout crates auth req conn = some token ↔
      ∃ store, auth = some store ∧ requestToken req.headers req.query = some token ∧
        proxy.filterClient crates req conn = false ∧
        resourcePrefix.isPrefixOf req.path = false ∧
        matchSegments (embyPathSegments req.path) ["sessions", "logout"] = true ∧
        store.isValid token proxy.routeKey = true ∧
        crates.parseUri (proxy.upstreamTarget req) = none := by
  cases auth with
  | none => simp [failedLogout]
  | some store =>
      cases sent : requestToken req.headers req.query with
      | none => simp [failedLogout, sent]
      | some other =>
          simp only [failedLogout, sent, Option.ite_none_right_eq_some, Bool.and_eq_true,
            Bool.not_eq_true', Option.isNone_iff_eq_none, Option.some.injEq, exists_eq_left']
          constructor
          · rintro ⟨⟨⟨⟨⟨passed, outside⟩, logout⟩, valid⟩, refused⟩, rfl⟩
            exact ⟨rfl, passed, outside, logout, valid, refused⟩
          · rintro ⟨rfl, passed, outside, logout, valid, refused⟩
            exact ⟨⟨⟨⟨⟨passed, outside⟩, logout⟩, valid⟩, refused⟩, rfl⟩

/-- Without a store there is no token to forget. -/
theorem failedLogout_events (auth : Option Store) (req : Request) (conn : ConnInfo) :
    (if auth.isSome then
      (proxy.failedLogout crates auth req conn).toList.map Policy.Event.logout
    else []) = (proxy.failedLogout crates auth req conn).toList.map Policy.Event.logout := by
  cases auth with
  | none => rfl
  | some store => rfl

/-- A handler that has no logout to give up changes nothing. -/
theorem handleWithAuth_world {world : World} {store : Store} (auth : world.auth = some store)
    (env : Env) {req : Request} {conn : ConnInfo}
    (passed : proxy.filterClient crates req conn = false)
    (idle : proxy.failedLogout crates world.auth req conn = none) :
    (proxy.handleWithAuth crates world store env req conn).world = world := by
  unfold handleWithAuth
  split
  · rfl
  · next outside =>
      rw [Bool.not_eq_true] at outside
      dsimp only
      split
      · rfl
      · split
        · rfl
        · split
          · rfl
          · next token sent =>
              split
              · next valid =>
                  split
                  · next response answered =>
                      -- The upstream URL is refused, so a logout would be given up.
                      have refused := congrArg Flow.isSent answered
                      rw [proxyUpstream_isSent, Flow.isSent_answer, Option.isSome_eq_false_iff,
                        Option.isNone_iff_eq_none] at refused
                      split
                      · next logout =>
                          have given := failedLogout_eq_some.mpr
                            ⟨store, auth, sent, passed, outside, logout, valid, refused⟩
                          rw [idle] at given
                          cases given
                      · rfl
                  · rfl
              · rfl

/-- A request that cannot be sent forgets the token of a logout; nothing else changes before
the answer of the upstream. -/
theorem handleChecked_world_eq (world : World) (env : Env) (req : Request) (conn : ConnInfo) :
    (proxy.handleChecked crates world env req conn).world =
      removeSession crates world env (proxy.failedLogout crates world.auth req conn) := by
  cases failed : proxy.failedLogout crates world.auth req conn with
  | some token =>
      obtain ⟨store, auth, sent, passed, outside, logout, valid, refused⟩ :=
        failedLogout_eq_some.mp failed
      obtain ⟨list, isPublic⟩ := logout_segments logout req.method
      simp [handleChecked, passed, auth, handleWithAuth, outside, list, isPublic, sent, valid,
        logout, proxyUpstream, refused]
  | none =>
      change _ = world
      unfold handleChecked
      split
      · rfl
      · next passed =>
          rw [Bool.not_eq_true] at passed
          split
          · next store auth => exact handleWithAuth_world auth env passed failed
          · rfl

end RouteProxy

namespace Server

variable (crates : Crates) (server : Server)

/-- What a step of the process reports to the policy.  The task of a logout has the token of its
request, by `RouteProxy.task_of_sent`. -/
def reports (state : State) : Input → List Policy.Event
  | .request req conn _ =>
      match server.routes.lookup (hostKey req) with
      | none => []
      | some proxy => (proxy.failedLogout crates state.auth req conn).toList.map .logout
  | .reply id result _ =>
      match state.tasks id with
      | some (key, .upstream task) =>
          match server.routes.lookup key with
          | none => []
          | some proxy => proxy.reports crates state.auth.isSome task result
      | _ => []
  | .drop _ => []

/-- What the steps of a run report. -/
def history (start : State) (inputs : List Input) : List (List Policy.Event) :=
  (server.machine crates).partInputs (fun state input => some (server.reports crates state input))
    start inputs

/-- What a handler sends is an output of the process. -/
theorem outputs_of_isSent {state : State} {req : Request} {conn : ConnInfo} {env : Env}
    {proxy : RouteProxy} (route : server.routes.lookup (hostKey req) = some proxy)
    (sent : (proxy.handleChecked crates (state.world (hostKey req)) env req conn).flow.isSent =
      true) :
    ∃ key client out, Output.sent key client out ∈
      (server.machine crates).outputs state (.request req conn env) := by
  cases flow : (proxy.handleChecked crates (state.world (hostKey req)) env req conn).flow with
  | answer response =>
      rw [flow] at sent
      cases sent
  | send client out task =>
      refine ⟨hostKey req, client, out, ?_⟩
      simp [Machine.outputs, machine, step, route, flow]

variable {crates server}

/-- What the answer of an upstream changes is what it reports. -/
theorem policy_next_reply {state : State} {id : Nat} {proxy : RouteProxy} {task : Task}
    (resumes : server.Resumes state id proxy.routeKey proxy task) (result : SendResult)
    (env : Env) :
    ((server.machine crates).next state (.reply id result env)).policy =
      (server.reports crates state (.reply id result env)).foldl Policy.apply state.policy := by
  have next : ((server.machine crates).next state (.reply id result env)).policy =
      .of (proxy.resume crates (state.world proxy.routeKey) env task result).world.auth
        (Function.update state.registries proxy.routeKey
          (proxy.resume crates (state.world proxy.routeKey) env task result).world.registry) := by
    simp only [Machine.next, machine, step, resumes.task, resumes.route]
    rfl
  rw [next]
  cases task with
  | resource req =>
      have same : (proxy.resume crates (state.world proxy.routeKey) env (.resource req)
          result).world = state.world proxy.routeKey := by
        unfold RouteProxy.resume RouteProxy.resourceReply
        dsimp only
        split <;> rfl
      simp only [same, reports, resumes.task, List.foldl_nil]
      exact congrArg (Policy.of state.auth) (Function.update_eq_self ..)
  | upstream task =>
      have users : (proxy.upstreamReply crates (state.world proxy.routeKey) env task
          result).world.auth.isSome = state.auth.isSome := by
        have same := congrArg Option.isSome
          (proxy.upstreamReply_change crates (state.world proxy.routeKey) env task result).identity
        rwa [Option.isSome_map, Option.isSome_map] at same
      change Policy.of (RouteProxy.removeSession crates _ env task.logout).auth
        (Function.update _ _ (RouteProxy.removeSession crates _ env task.logout).registry) = _
      rw [RouteProxy.removeSession_registry, RouteProxy.policy_logout,
        RouteProxy.policy_taught _ _ _ _ _ rfl, RouteProxy.policy_login, users]
      simp only [reports, resumes.task, resumes.route, RouteProxy.reports, List.foldl_append]
      rfl

theorem reports_of_not_resumes {state : State} {id : Nat} (result : SendResult) (env : Env)
    (idle : ∀ key proxy task, ¬server.Resumes state id key proxy task) :
    server.reports crates state (.reply id result env) = [] := by
  simp only [reports]
  split
  · next key task waiting =>
      split
      · rfl
      · next proxy route => exact absurd ⟨waiting, route⟩ (idle key proxy (.upstream task))
  · rfl

/-- A step changes the policy as it reports. -/
theorem policy_next
    (keyed : ∀ key proxy, server.routes.lookup key = some proxy → key = proxy.routeKey)
    (state : State) (input : Input) :
    ((server.machine crates).next state input).policy =
      (server.reports crates state input).foldl Policy.apply state.policy := by
  cases input with
  | request req conn env =>
      cases route : server.routes.lookup (hostKey req) with
      | none => simp [Machine.next, machine, step, reports, route]
      | some proxy =>
          have next : ((server.machine crates).next state (.request req conn env)).policy =
              .of (proxy.handleChecked crates (state.world (hostKey req)) env req conn).world.auth
                (Function.update state.registries (hostKey req)
                  (proxy.handleChecked crates (state.world (hostKey req)) env req
                    conn).world.registry) := by
            simp only [Machine.next, machine, step, route]
            split <;> rfl
          have same : Function.update state.registries (hostKey req)
              (state.world (hostKey req)).registry = state.registries :=
            Function.update_eq_self ..
          rw [next, RouteProxy.handleChecked_world_eq, RouteProxy.removeSession_registry,
            RouteProxy.policy_logout, same]
          simp only [reports, route]
          exact congrArg (List.foldl Policy.apply state.policy)
            (RouteProxy.failedLogout_events state.auth req conn)
  | reply id result env =>
      by_cases resumes : ∃ key proxy task, server.Resumes state id key proxy task
      · obtain ⟨key, proxy, task, resumes⟩ := resumes
        obtain rfl := keyed key proxy resumes.route
        exact policy_next_reply resumes result env
      · have idle : ∀ key proxy task, ¬server.Resumes state id key proxy task :=
          fun key proxy task waiting => resumes ⟨key, proxy, task, waiting⟩
        rw [next_reply_of_not_resumes result env idle, reports_of_not_resumes result env idle]
        rfl
  | drop id => rfl

theorem policy_run
    (keyed : ∀ key proxy, server.routes.lookup key = some proxy → key = proxy.routeKey)
    (start : State) (inputs : List Input) :
    ((server.machine crates).run start inputs).policy =
      Policy.machine.run start.policy (server.history crates start inputs) :=
  (server.machine crates).run_part Policy.machine State.policy
    (fun state input => policy_next keyed state input) start inputs

/-- Whatever has happened to a process, it sends a request to an upstream exactly when the
policy that its own history leads to lets the request through. -/
theorem decisions_refine_policy {cfg : Config} {disk disk' : Disk} {env : Env} {server : Server}
    {start : State} (booted : boot crates cfg disk env = (disk', .ok (server, start)))
    (inputs : List Input) (req : Request) (conn : ConnInfo) (now : Env) :
    (∃ key client out, Output.sent key client out ∈ (server.machine crates).outputs
        ((server.machine crates).run start inputs) (.request req conn now)) ↔
      ∃ proxy, server.routes.lookup (hostKey req) = some proxy ∧
        proxy.filterClient crates req conn = false ∧
        (Policy.machine.run start.policy (server.history crates start inputs)).Admits crates proxy
          req := by
  obtain ⟨auth, -, rfl, rfl⟩ := boot_spec booted
  have keyed : ∀ key proxy, (withStats crates cfg auth).routes.lookup key = some proxy →
      key = proxy.routeKey := by
    intro key proxy found
    obtain ⟨route, -, -, named⟩ := lookup_withStats found
    exact named
  rw [← policy_run keyed]
  constructor
  · rintro ⟨key, client, out, sent⟩
    obtain ⟨proxy, task, route, -, flow⟩ := sent_of_request crates _ sent
    rw [keyed _ _ route] at flow
    exact ⟨proxy, route, (RouteProxy.handleChecked_isSent now conn).mp (by rw [flow]; rfl)⟩
  · rintro ⟨proxy, route, admitted⟩
    have sent := (RouteProxy.handleChecked_isSent now conn).mpr admitted
    rw [← keyed _ _ route] at sent
    exact outputs_of_isSent crates _ route sent

/-- The login of `ken` opens the route for requests with its token. -/
theorem decisions_refine_policy_login :
    let cfg := Reference.config ["ken"] []
    let start := Reference.start cfg
    let req := Reference.request .get "/emby/Items" none [("x-emby-token", "tok")]
    let policy (inputs : List Input) : Policy := Policy.machine.run start.policy
      ((Reference.server cfg).history Reference.crates start inputs)
    ∃ proxy : RouteProxy, proxy.routeKey = "proxemby".toList ∧
      ¬(policy []).Admits Reference.crates proxy req ∧
      (policy Reference.login).Admits Reference.crates proxy req := by
  intro cfg start req policy
  have decisions (inputs : List Input) :=
    decisions_refine_policy (@Reference.boot_eq cfg (by decide) rfl) inputs req Reference.conn
      Reference.env
  obtain ⟨proxy, route, passed, admits⟩ := (decisions Reference.login).mp
    ⟨"proxemby".toList, .default, ⟨.get, "http://emby:8096/emby/Items".toList,
      ⟨[("x-emby-token".toList, encode "tok".toList),
        ("x-forwarded-for".toList, encode "127.0.0.1".toList),
        ("x-forwarded-host".toList, encode "proxemby".toList),
        ("x-forwarded-proto".toList, encode "http".toList)]⟩⟩, by decide +kernel⟩
  obtain ⟨-, -, -, named⟩ := lookup_withStats route
  refine ⟨proxy, named.symm, ?_, admits⟩
  intro early
  obtain ⟨key, client, out, sent⟩ := (decisions []).mpr ⟨proxy, route, passed, early⟩
  have answered : ((Reference.server cfg).machine Reference.crates).outputs start
      (.request req Reference.conn Reference.env) = [.answered unauthorized] := by
    decide +kernel
  rw [Machine.run_nil, answered] at sent
  simp at sent

end Server

end Proxemby
