import Proxemby.Rewrite.Acceptance
import Proxemby.Server.Buffered
import Proxemby.Server.Sessions

/-!
# Answers to logins

With allowed users set, an answer to a login gives its token to the client only for an
allowed user, and only after the session is stored.  That holds of the answers that the
proxy looks at.
-/

namespace Proxemby

open Text Utf8

/-! ## What a login is -/

/-- The paths of logins: the gate lets the first two through without a token, and the answer
to the third is the one that is looked at. -/
def IsLogin (path : Str) : Prop :=
  matchSegments (embyPathSegments path) ["users", "authenticatebyname"] = true ∨
    matchSegments (embyPathSegments path) ["users", "*", "authenticate"] = true ∨
    isLoginPath path = true

/-- The two rules agree. -/
theorem isLoginPath_of_isLogin {path : Str} (login : IsLogin path) : isLoginPath path = true := by
  have users : ∀ {segments want}, matchSegments segments ("users" :: want) = true →
      segments.head? = some "users".toList := by
    intro segments want found
    cases segments with
    | nil => simp [matchSegments] at found
    | cons first rest =>
        simp only [matchSegments, List.zip_cons_cons, List.all_cons, Bool.and_eq_true,
          Bool.or_eq_true, decide_eq_true_eq] at found
        rw [found.2.1.resolve_left (by decide), List.head?_cons]
  have whole : embyPathSegments path ∈ (embyPathSegments path).tails :=
    (List.mem_tails _ _).mpr List.suffix_rfl
  obtain byName | byId | other := login
  · rw [isLoginPath, List.any_eq_true]
    exact ⟨_, whole, by simp [users byName, byName]⟩
  · rw [isLoginPath, List.any_eq_true]
    exact ⟨_, whole, by simp [users byId, byId]⟩
  · exact other

/-- A logout is no login. -/
theorem isLoginPath_of_logout {path : Str}
    (logout : matchSegments (embyPathSegments path) ["sessions", "logout"] = true) :
    isLoginPath path = false := by
  rw [isLoginPath]
  match segments : embyPathSegments path with
  | [first, second] =>
      rw [segments] at logout
      simp only [matchSegments, List.zip_cons_cons, List.zip_nil_left, List.all_cons,
        List.all_nil, Bool.and_true, Bool.and_eq_true, Bool.or_eq_true,
        decide_eq_true_eq] at logout
      rw [logout.2.1.resolve_left (by decide), logout.2.2.resolve_left (by decide)]
      decide
  | [] => rfl
  | [_] => simp [segments, matchSegments] at logout
  | _ :: _ :: _ :: _ => simp [segments, matchSegments] at logout

/-! ## What the client gets -/

/-- The octets of a body that reach the client. -/
def Body.received : Body → Bytes
  | .empty => []
  | .full body => body
  | .incoming frames => Proxemby.received frames

variable {crates : Crates}

/-- The body of an answer, once its codings are undone, is JSON with an access token. -/
def Response.Hands (codings : Codings crates) (response : Response) (login : LoginReply) :
    Prop :=
  response.body.received ≠ [] ∧ login.token ≠ [] ∧ ∃ body json,
    codings.undo response.headers.codings response.body.received = some body ∧
      crates.parseJson body = some json ∧ login = LoginReply.ofJson json

/-- The JSON parser accepts JSON texts alone. -/
def Crates.ParsesJson (crates : Crates) : Prop :=
  ∀ body json, crates.parseJson body = some json →
    ∃ text, decode body = some text ∧ IsJson Rfc8259.IsHex4 text

/-- The user of a login may log in, and there is a session on the route for its token. -/
def Recorded (crates : Crates) (allowedUsers : List Str) (session? : Str → Option Session)
    (key : Str) (login : LoginReply) : Prop :=
  crates.toLowercase login.userName ∈ allowedUsers ∧
    ∃ session, session? login.token = some session ∧ session.route = key

/-- An answer that the proxy passes on with its body, whatever it says: those with status 200
are checked, and one with status 101 loses its body. -/
def Reply.PassesOn (reply : Reply) : Prop := reply.status ≠ 200 ∧ reply.status ≠ 101

variable {codings : Codings crates}

theorem not_hands_emptyResponse (status : Nat) (login : LoginReply) :
    ¬(emptyResponse status).Hands codings login :=
  fun hands => hands.1 rfl

theorem not_hands_rejected (parses : crates.ParsesJson) (login : LoginReply) :
    ¬(textResponse 401 "user is not allowed").Hands codings login := by
  rintro ⟨-, -, body, json, undone, parsed, -⟩
  have plain : (textResponse 401 "user is not allowed").headers.codings = [] := by
    decide +kernel
  rw [plain, codings.plain [] _ rfl, Option.some.injEq] at undone
  subst undone
  obtain ⟨text, decoded, isJson⟩ := parses _ json parsed
  have read : decode (textResponse 401 "user is not allowed").body.received =
      some "user is not allowed\n".toList := by
    decide +kernel
  rw [read, Option.some.injEq] at decoded
  subst decoded
  have scanned := scan_isSome_iff_loose.mpr isJson.loose.1
  revert scanned
  decide +kernel

theorem not_hands_upgrade (reply : Reply) (upgrade : Option HeaderValue) (login : LoginReply) :
    ¬(RouteProxy.handleUpgradeResponse reply upgrade).Hands codings login := by
  cases upgrade with
  | none => exact not_hands_emptyResponse 502 login
  | some requested =>
      rw [RouteProxy.handleUpgradeResponse]
      split
      · exact fun hands => hands.1 rfl
      · exact not_hands_emptyResponse 502 login

/-- A buffered answer hands over what the proxy has read. -/
theorem hands_fullResponse {reply : Reply} {body : Bytes} {login : LoginReply}
    (hands : (RouteProxy.fullResponse reply body).Hands codings login) :
    login = LoginReply.ofJson ((crates.parseJson body).getD .null) := by
  obtain ⟨-, -, read, json, undone, parsed, rfl⟩ := hands
  rw [RouteProxy.codings_fullResponse, codings.plain [] _ rfl, Option.some.injEq] at undone
  subst undone
  rw [RouteProxy.fullResponse, Body.received] at parsed
  rw [parsed, Option.getD_some]

namespace RouteProxy

variable {proxy : RouteProxy}

/-- An answer with status 200 hands over a token only for an allowed user, and after the
session is stored. -/
theorem handleLoginResponse_hands (parses : crates.ParsesJson) {world : World} {store : Store}
    {env : Env} {reply : Reply} {outPath : Str} (status : reply.status = 200)
    {login : LoginReply}
    (hands : (proxy.handleLoginResponse crates world store env reply outPath).response.Hands
      codings login) :
    crates.toLowercase login.userName ∈ proxy.allowedUsers ∧
      (proxy.handleLoginResponse crates world store env reply outPath).world.session?
        login.token = some (proxy.sessionOf env login) := by
  cases read : proxy.readBody crates reply with
  | error e =>
      rw [handleLoginResponse, if_neg (by simp [status]), read] at hands
      exact absurd hands (not_hands_emptyResponse 502 login)
  | ok body =>
      by_cases accepted : (LoginReply.ofJson ((crates.parseJson body).getD .null)).token ≠ [] ∧
          crates.toLowercase (LoginReply.ofJson ((crates.parseJson body).getD .null)).userName ∈
            proxy.allowedUsers
      · obtain ⟨disk, response, handled, empty | full⟩ := @handleLoginResponse_of_accepts crates
          proxy world store env reply outPath body _ status read rfl accepted.1 accepted.2
        · rw [handled, empty] at hands
          exact absurd hands (not_hands_emptyResponse 502 login)
        · rw [handled, full] at hands
          rw [handled, hands_fullResponse hands]
          exact ⟨accepted.2, Finmap.lookup_insert store.sessions⟩
      · rw [handleLoginResponse, if_neg (by simp [status]), read] at hands
        dsimp only at hands
        rw [if_neg accepted] at hands
        exact absurd hands (not_hands_rejected parses login)

/-- What the answers to logins hand over. -/
theorem upstreamReply_hands (parses : crates.ParsesJson) {world : World} {store : Store}
    (auth : world.auth = some store) {task : UpstreamTask}
    (path : isLoginPath task.req.path = true) (env : Env) (result : SendResult) :
    (∀ login, (proxy.upstreamReply crates world env task result).response.Hands codings login →
      Recorded crates proxy.allowedUsers
        (proxy.upstreamReply crates world env task result).world.session? proxy.routeKey login) ↔
    ∀ reply login, result = .reply reply → reply.PassesOn →
      reply.endToEnd.response.Hands codings login →
      Recorded crates proxy.allowedUsers world.session? proxy.routeKey login := by
  have stored : (if isLoginPath task.req.path then world.auth else none) = some store := by
    rw [if_pos path, auth]
  cases result with
  | timeout =>
      refine iff_of_true (fun login hands => ?_) (fun _ _ absurd => by cases absurd)
      exact absurd hands (not_hands_emptyResponse 504 login)
  | error message =>
      refine iff_of_true (fun login hands => ?_) (fun _ _ absurd => by cases absurd)
      exact absurd hands (not_hands_emptyResponse 502 login)
  | reply reply =>
      by_cases switching : reply.status = 101
      · refine iff_of_true (fun login hands => ?_) ?_
        · rw [upstreamReply, SendResult.toReply] at hands
          dsimp only at hands
          rw [if_pos switching] at hands
          exact absurd hands (not_hands_upgrade reply task.requestUpgrade login)
        · rintro _ login ⟨⟩ passes
          exact absurd switching passes.2
      · have handled : proxy.upstreamReply crates world env task (.reply reply) =
            proxy.handleLoginResponse crates world store env reply.endToEnd task.outPath := by
          simp only [upstreamReply, SendResult.toReply, if_neg switching, stored,
            Reply.endToEnd]
        have sameStatus : reply.endToEnd.status = reply.status := by rw [Reply.endToEnd]
        rw [handled]
        by_cases status : reply.status = 200
        · refine iff_of_true (fun login hands => ?_) ?_
          · obtain ⟨user, found⟩ :=
              handleLoginResponse_hands parses (sameStatus.trans status) hands
            exact ⟨user, _, found, rfl⟩
          · rintro _ login ⟨⟩ passes
            exact absurd status passes.1
        · rw [handleLoginResponse, if_pos (by rwa [sameStatus])]
          constructor
          · rintro recorded _ login ⟨⟩ - hands
            exact recorded login hands
          · intro recorded login hands
            exact recorded reply login rfl ⟨status, switching⟩ hands

end RouteProxy

namespace Server

variable (crates) (server : Server)

/-- Only handlers of logouts have a token to forget. -/
def LogoutsForget (state : State) : Prop :=
  ∀ id key task, state.tasks id = some (key, .upstream task) → task.logout ≠ none →
    matchSegments (embyPathSegments task.req.path) ["sessions", "logout"] = true

theorem run_logoutsForget {cfg : Config} {auth : Option Store} {disk : Disk}
    (inputs : List Input) :
    LogoutsForget ((server.machine crates).run (initial cfg auth disk) inputs) := by
  refine (server.machine crates).run_invariant LogoutsForget ?_ ?_ inputs
  · intro state input before id key task waits logout
    rcases server.next_task crates waits with
      earlier | ⟨-, req, conn, env, proxy, client, out, -, -, flow⟩
    · exact before id key task earlier logout
    · obtain ⟨same, token⟩ := proxy.task_of_sent crates flow
      rw [same]
      exact ((token _).mp (Option.some_get (Option.isSome_iff_ne_none.mpr logout)).symm).1
  · intro id key task waits
    cases waits

variable {crates server}

theorem answered_iff {state : State} {id : Nat} {key : Str} {proxy : RouteProxy} {task : Task}
    (resumes : server.Resumes state id key proxy task) {result : SendResult} {env : Env}
    {response : Response} :
    Output.answered response ∈ (server.machine crates).outputs state (.reply id result env) ↔
      response = (proxy.resume crates (state.world key) env task result).response := by
  simp [Machine.outputs, machine, step, resumes.task, resumes.route]

variable (crates) in
theorem session?_next_reply {state : State} {id : Nat} {key : Str} {proxy : RouteProxy}
    {task : Task} (resumes : server.Resumes state id key proxy task) (result : SendResult)
    (env : Env) (token : Str) :
    ((server.machine crates).next state (.reply id result env)).session? token =
      (proxy.resume crates (state.world key) env task result).world.session? token := by
  simp only [Machine.next, machine, step, resumes.task, resumes.route]
  rfl

variable (crates server) in
/-- Every token that the client gets in a step is recorded by the end of it. -/
def RecordsTokens (codings : Codings crates) (allowedUsers : List Str) (state : State) (key : Str)
    (input : Input) : Prop :=
  ∀ response login, Output.answered response ∈ (server.machine crates).outputs state input →
    response.Hands codings login →
    Recorded crates allowedUsers ((server.machine crates).next state input).session? key login

/-- A token that the client of a login gets is one of an allowed user, with a session on the
route by the time of the answer, exactly when that was already so of the tokens in an answer
that the proxy passes on. -/
theorem login_tokens_iff (parses : crates.ParsesJson) {cfg : Config} {disk disk' : Disk}
    {env : Env} {server : Server} {start state : State} (users : cfg.allowedUsers ≠ [])
    (booted : boot crates cfg disk env = (disk', .ok (server, start))) {inputs : List Input}
    (reached : state = (server.machine crates).run start inputs) {id : Nat} {key : Str}
    {proxy : RouteProxy} {task : UpstreamTask}
    (waits : server.Resumes state id key proxy (.upstream task)) (path : IsLogin task.req.path)
    (codings : Codings crates) (result : SendResult) (env' : Env) :
    server.RecordsTokens crates codings (cfg.allowedUsers.map crates.toLowercase) state key
        (.reply id result env') ↔
    ∀ reply login, result = .reply reply → reply.PassesOn →
      reply.endToEnd.response.Hands codings login →
      Recorded crates (cfg.allowedUsers.map crates.toLowercase) state.session? key login := by
  have login := isLoginPath_of_isLogin path
  obtain ⟨store, auth⟩ :=
    Option.isSome_iff_exists.mp ((run_auth_isSome crates booted inputs).mpr users)
  rw [← reached] at auth
  obtain ⟨auth', -, rfl, rfl⟩ := boot_spec booted
  obtain ⟨route, -, rfl, named⟩ := lookup_withStats waits.route
  have forgets : task.logout = none := by
    by_contra logout
    have isLogout := run_logoutsForget crates _ inputs id key task (reached ▸ waits.task) logout
    rw [isLoginPath_of_logout isLogout] at login
    cases login
  have world : ((RouteProxy.new crates cfg route auth').resume crates (state.world key) env'
      (.upstream task) result).world =
        ((RouteProxy.new crates cfg route auth').upstreamReply crates (state.world key) env' task
          result).world := by
    rw [RouteProxy.resume, forgets]
    rfl
  have hands := @RouteProxy.upstreamReply_hands crates codings (.new crates cfg route auth')
    parses (state.world key) store auth task login env' result
  rw [← named] at hands
  refine Iff.trans ?_ hands
  have after := session?_next_reply crates waits result env'
  rw [world] at after
  constructor
  · intro recorded login hands
    have handed := recorded _ login ((answered_iff waits).mpr rfl) hands
    rwa [funext after] at handed
  · rintro recorded response login answered hands
    rw [(answered_iff waits).mp answered] at hands
    rw [funext after]
    exact recorded login hands

theorem reference_parseJson (body : Bytes) : Reference.crates.parseJson body =
    if body = Reference.loginBody then some Reference.loginJson else none := rfl

/-- The reference parser takes one body, and it is JSON. -/
theorem reference_parsesJson : Reference.crates.ParsesJson := by
  intro body json parsed
  rw [reference_parseJson, Option.ite_none_right_eq_some] at parsed
  rw [parsed.1, Reference.loginBody]
  refine ⟨_, decode_encode _, ?_⟩
  exact (scan_isSome_iff_loose.mp (by decide +kernel)).strict (by decide +kernel)

/-- The login of `ken` that waits for its answer. -/
def loginTask : UpstreamTask where
  req := Reference.request .post "/emby/Users/AuthenticateByName" none []
  outPath := "/emby/Users/AuthenticateByName".toList
  requestUpgrade := none
  logout := none

/-- The process while the login waits. -/
def loginState (users : List String) : State :=
  ((Reference.server (Reference.config users [])).machine Reference.crates).run
    (Reference.start (Reference.config users []))
    [.request loginTask.req Reference.conn Reference.env]

/-- A login of `ken` is recorded before the client gets its token. -/
theorem login_tokens_iff_ken :
    (Reference.server (Reference.config ["ken"] [])).RecordsTokens Reference.crates
      (Codings.unknown Reference.crates) (["ken".toList].map Reference.crates.toLowercase)
      (loginState ["ken"]) "proxemby".toList
      (.reply 0 (Reference.answer "application/json" Reference.loginBody) Reference.env) := by
  obtain ⟨proxy, route⟩ : ∃ proxy, (Reference.server (Reference.config ["ken"] [])).routes.lookup
      "proxemby".toList = some proxy := ⟨_, rfl⟩
  have waits : (Reference.server (Reference.config ["ken"] [])).Resumes (loginState ["ken"]) 0
      "proxemby".toList proxy (.upstream loginTask) := ⟨by decide +kernel, route⟩
  refine (login_tokens_iff reference_parsesJson (by decide)
    (@Reference.boot_eq (Reference.config ["ken"] []) (by decide) rfl) rfl waits
    (.inl (by decide +kernel)) _ _ Reference.env).mpr ?_
  rintro _ login ⟨⟩ passes
  exact absurd rfl passes.1

/-- The answer of an upstream that says 201 to the login of `ken`. -/
def createdReply : Reply where
  status := 201
  headers := ⟨[("content-type".toList, encode "application/json".toList)]⟩
  frames := [.data Reference.loginBody]

/-- The client gets the token of `ken`, who may not log in. -/
theorem created_login_hands_token :
    boot Reference.crates (Reference.config ["anna"] []) (fun _ => none) Reference.env =
      (Reference.disk, .ok (Reference.server (Reference.config ["anna"] []),
        Reference.start (Reference.config ["anna"] []))) ∧
    IsLogin loginTask.req.path ∧
    ¬(Reference.server (Reference.config ["anna"] [])).RecordsTokens Reference.crates
      (Codings.unknown Reference.crates) (["anna".toList].map Reference.crates.toLowercase)
      (loginState ["anna"]) "proxemby".toList (.reply 0 (.reply createdReply) Reference.env) := by
  refine ⟨Reference.boot_eq (by decide) rfl, .inl (by decide +kernel), ?_⟩
  intro recorded
  have parsed : Reference.crates.parseJson Reference.loginBody = some Reference.loginJson := by
    rw [reference_parseJson, if_pos rfl]
  have hands : createdReply.response.Hands (Codings.unknown Reference.crates)
      (LoginReply.ofJson Reference.loginJson) :=
    ⟨by decide +kernel, by decide +kernel, Reference.loginBody, Reference.loginJson,
      by decide +kernel, parsed, rfl⟩
  refine absurd (recorded createdReply.response _ (by decide +kernel) hands).1 ?_
  decide +kernel

end Server

end Proxemby
