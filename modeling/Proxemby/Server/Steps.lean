import Proxemby.Rewrite.Learning
import Proxemby.Server.Process

/-!
# What a step can do

One lemma for each handler says what it can do to the state that it shares with
others; the invariants of runs follow from these alone.  A handler starts without
learning or storing anything.  When it goes on, it can store the session of an
accepted login, learn the hosts of a rewritten body, or forget a session.
-/

namespace Proxemby

open Text

namespace RouteProxy

variable (crates : Crates) (proxy : RouteProxy)

/-- The answer to a login that makes the proxy store a session: the upstream gives a
token to an allowed user. -/
structure AcceptsLogin (task : UpstreamTask) (result : SendResult) (login : LoginReply) :
    Prop where
  path : isLoginPath task.req.path = true
  token : login.token ≠ []
  user : crates.toLowercase login.userName ∈ proxy.allowedUsers
  answer : ∃ reply body, result = .reply reply ∧ reply.status = 200 ∧
    proxy.readBody crates { reply with headers := removeHopByHop reply.headers } = .ok body ∧
    login = LoginReply.ofJson ((crates.parseJson body).getD .null)

/-- The answer whose body the rewriter gets. -/
structure RunsRewriter (auth : Option Store) (task : UpstreamTask) (result : SendResult)
    (body : Bytes) : Prop where
  path : isPlaybackInfoPath task.req.path = true
  notLogin : auth.isSome = true → isLoginPath task.req.path = false
  answer : ∃ reply, result = .reply reply ∧ reply.status ≠ 101 ∧
    isJsonContentType (removeHopByHop reply.headers) = true ∧
    proxy.readBody crates { reply with headers := removeHopByHop reply.headers } = .ok body

/-- The registry after the rewriter has seen a body. -/
def learned (registry : Registry) (body : Bytes) : Registry :=
  ((proxy.rewriter.rewritePlaybackInfo crates.toJson registry body).get
    (proxy.rewriter.rewritePlaybackInfo_isSome crates.toJson registry body)).1

/-- What the rewriter makes of a body; the body itself when nothing is rewritten. -/
def rewrittenBody (registry : Registry) (body : Bytes) : Bytes :=
  ((proxy.rewriter.rewritePlaybackInfo crates.toJson registry body).get
    (proxy.rewriter.rewritePlaybackInfo_isSome crates.toJson registry body)).2.1.getD body

/-- The session of an accepted login. -/
def sessionOf (env : Env) (login : LoginReply) : Session :=
  Session.new env proxy.routeKey login.userId login.userName

/-- What the answer of an upstream can change. -/
inductive Change (world : World) (env : Env) (task : UpstreamTask) (result : SendResult) :
    World → Prop where
  | same (idle : ∀ body, ¬proxy.RunsRewriter crates world.auth task result body) :
      Change world env task result world
  | login {store : Store} {login : LoginReply} (auth : world.auth = some store)
      (accepts : proxy.AcceptsLogin crates task result login) {disk : Disk}
      (saved : disk = (store.add crates.toStoreCrates world.disk env login.token
        (proxy.sessionOf env login)).2.1) :
      Change world env task result
        { world with
          auth := some { store with
            sessions := store.sessions.insert login.token (proxy.sessionOf env login) }
          disk }
  | learn {body : Bytes} (runs : proxy.RunsRewriter crates world.auth task result body) :
      Change world env task result
        { world with registry := proxy.learned crates world.registry body }

/-- The login of a user that may not log in, or an answer that is no login, stores
nothing. -/
theorem handleLoginResponse_change {world : World} {store : Store} (env : Env)
    {task : UpstreamTask} {reply : Reply} (auth : world.auth = some store)
    (login : isLoginPath task.req.path = true) :
    proxy.Change crates world env task (.reply reply)
      (proxy.handleLoginResponse crates world store env
        { reply with headers := removeHopByHop reply.headers } task.outPath).world := by
  have idle : ∀ body, ¬proxy.RunsRewriter crates world.auth task (.reply reply) body := by
    intro body runs
    have other := runs.notLogin (by rw [auth]; rfl)
    rw [login] at other
    cases other
  unfold handleLoginResponse
  split
  · exact .same idle
  · next status =>
      split
      · exact .same idle
      · next body read =>
          dsimp only
          split
          · next accepted =>
              have added := @Store.add_fst crates.toStoreCrates store world.disk env _
                accepted.1 (proxy.sessionOf env
                  (LoginReply.ofJson ((crates.parseJson body).getD .null)))
              have accepts : proxy.AcceptsLogin crates task (.reply reply)
                  (LoginReply.ofJson ((crates.parseJson body).getD .null)) :=
                ⟨login, accepted.1, accepted.2, reply, body, rfl, by simpa using status, read, rfl⟩
              split
              · next store' disk e ran =>
                  rw [sessionOf, ran] at added
                  dsimp only at added
                  subst added
                  exact .login auth accepts (by rw [sessionOf, ran])
              · next store' disk ran =>
                  rw [sessionOf, ran] at added
                  dsimp only at added
                  subst added
                  exact .login auth accepts (by rw [sessionOf, ran])
          · exact .same idle

/-- A rewriter that gets no body leaves the registry alone. -/
theorem rewritePlaybackInfo_change {world : World} (env : Env) {task : UpstreamTask}
    {reply : Reply} (path : isPlaybackInfoPath task.req.path = true)
    (notLogin : world.auth.isSome = true → isLoginPath task.req.path = false)
    (status : reply.status ≠ 101)
    (json : isJsonContentType (removeHopByHop reply.headers) = true) :
    proxy.Change crates world env task (.reply reply)
      (proxy.rewritePlaybackInfo crates world
        { reply with headers := removeHopByHop reply.headers }).world := by
  unfold rewritePlaybackInfo
  split
  · next failed =>
      refine .same ?_
      rintro body ⟨-, -, reply', equal, -, -, read⟩
      cases equal
      rw [failed] at read
      cases read
  · next body read => exact .learn ⟨path, notLogin, reply, rfl, status, json, read⟩

/-- The answer to a PlaybackInfo request that is JSON goes to the rewriter. -/
theorem upstreamReply_buffered {world : World} (env : Env) {task : UpstreamTask}
    {reply : Reply} (path : isPlaybackInfoPath task.req.path = true)
    (notLogin : world.auth.isSome = true → isLoginPath task.req.path = false)
    (status : reply.status ≠ 101)
    (json : isJsonContentType (removeHopByHop reply.headers) = true) :
    proxy.upstreamReply crates world env task (.reply reply) =
      proxy.rewritePlaybackInfo crates world
        { reply with headers := removeHopByHop reply.headers } := by
  have noStore : (if isLoginPath task.req.path then world.auth else none) = none := by
    cases auth : world.auth with
    | none => simp
    | some store => simp [notLogin (by rw [auth]; rfl)]
  simp only [upstreamReply, SendResult.toReply, if_neg status, noStore, path, json,
    Bool.and_self, ↓reduceIte]

/-- The answer whose body the rewriter gets teaches the registry its hosts. -/
theorem upstreamReply_of_runs (world : World) (env : Env) {task : UpstreamTask}
    {result : SendResult} {body : Bytes}
    (runs : proxy.RunsRewriter crates world.auth task result body) :
    (proxy.upstreamReply crates world env task result).world =
      { world with registry := proxy.learned crates world.registry body } := by
  obtain ⟨path, notLogin, reply, rfl, status, json, read⟩ := runs
  rw [proxy.upstreamReply_buffered crates env path notLogin status json, rewritePlaybackInfo, read]
  rfl

/-- Everything that the answer of an upstream can do to what a route shares. -/
theorem upstreamReply_change (world : World) (env : Env) (task : UpstreamTask)
    (result : SendResult) :
    proxy.Change crates world env task result
      (proxy.upstreamReply crates world env task result).world := by
  unfold upstreamReply
  cases result with
  | timeout =>
      refine .same ?_
      rintro body ⟨-, -, reply, equal, -⟩
      cases equal
  | error message =>
      refine .same ?_
      rintro body ⟨-, -, reply, equal, -⟩
      cases equal
  | reply reply =>
      simp only [SendResult.toReply]
      split
      · next switching =>
          refine .same ?_
          rintro body ⟨-, -, reply', equal, status, -⟩
          cases equal
          exact status switching
      · next status =>
          split
          · next store found =>
              rw [Option.ite_none_right_eq_some] at found
              exact proxy.handleLoginResponse_change crates env found.2 found.1
          · next absent =>
              have notLogin : world.auth.isSome = true → isLoginPath task.req.path = false := by
                intro auth
                by_contra login
                rw [Bool.not_eq_false] at login
                rw [if_pos login] at absent
                rw [absent] at auth
                cases auth
              split
              · next both =>
                  rw [Bool.and_eq_true] at both
                  exact proxy.rewritePlaybackInfo_change crates env both.1 notLogin status both.2
              · next neither =>
                  refine .same ?_
                  rintro body ⟨path, -, reply', equal, -, json, -⟩
                  cases equal
                  rw [path, json] at neither
                  exact neither rfl

/-- A handler that starts changes nothing, or forgets the session of a logout that
could not be sent; the token of a logout is one of this route. -/
theorem handleChecked_world (world : World) (env : Env) (req : Request) (conn : ConnInfo) :
    ∃ logout, (proxy.handleChecked crates world env req conn).world =
        removeSession crates world env logout ∧
      ∀ token store, logout = some token → world.auth = some store →
        store.isValid token proxy.routeKey = true := by
  unfold handleChecked
  split
  · exact ⟨none, rfl, by simp⟩
  · split
    · next store auth =>
        unfold handleWithAuth
        split
        · exact ⟨none, rfl, by simp⟩
        · dsimp only
          split
          · exact ⟨none, rfl, by simp⟩
          · split
            · exact ⟨none, rfl, by simp⟩
            · split
              · exact ⟨none, rfl, by simp⟩
              · next token sent =>
                  split
                  · next valid =>
                      split
                      · refine ⟨_, rfl, ?_⟩
                        intro gone store' logout auth'
                        rw [Option.ite_none_right_eq_some, Option.some.injEq] at logout
                        rw [auth, Option.some.injEq] at auth'
                        rw [← logout.2, ← auth']
                        exact valid
                      · exact ⟨none, rfl, by simp⟩
                  · exact ⟨none, rfl, by simp⟩
    · exact ⟨none, rfl, by simp⟩

/-- Everything that a handler can do when it goes on. -/
theorem resume_world (world : World) (env : Env) (task : Task) (result : SendResult) :
    (proxy.resume crates world env task result).world = world ∨
      ∃ upstream changed, task = .upstream upstream ∧
        proxy.Change crates world env upstream result changed ∧
        (proxy.resume crates world env task result).world =
          removeSession crates changed env upstream.logout := by
  cases task with
  | resource req =>
      left
      unfold resume resourceReply
      dsimp only
      split <;> rfl
  | upstream task =>
      exact .inr ⟨task, _, rfl, proxy.upstreamReply_change crates world env task result, rfl⟩

/-- What `proxy_upstream` leaves behind is for its own request, with the token to forget. -/
theorem proxyUpstream_task {auth : Option Store} {req : Request} {conn : ConnInfo}
    {logout : Option Str} {client : Client} {out : OutRequest} {task : Task}
    (sent : proxy.proxyUpstream crates auth req conn logout = .send client out task) :
    ∃ upstream : UpstreamTask, task = .upstream upstream ∧ upstream.req = req ∧
      upstream.logout = logout := by
  rw [proxyUpstream] at sent
  split at sent
  · cases sent
  · cases sent
    exact ⟨_, rfl, rfl, rfl⟩

theorem not_upstream_of_proxyResource {world : World} {req : Request} {client : Client}
    {out : OutRequest} {task : UpstreamTask} :
    proxy.proxyResource crates world req ≠ .send client out (.upstream task) := by
  rw [proxyResource]
  split
  · nofun
  · split
    · nofun
    · split
      · nofun
      · dsimp only
        split <;> simp

/-- A logout is neither the list of users nor public. -/
theorem logout_segments {segments : List Str}
    (logout : matchSegments segments ["sessions", "logout"] = true) (method : Method) :
    matchSegments segments ["users", "public"] = false ∧
      isPublicEmbyPath method segments = false := by
  obtain ⟨first, rest, rfl, starts, logout⟩ := matchSegments_cons.mp logout
  obtain ⟨second, rest, rfl, ends, logout⟩ := matchSegments_cons.mp logout
  obtain rfl := matchSegments_nil.mp logout
  obtain rfl := starts.resolve_left (by decide)
  obtain rfl := ends.resolve_left (by decide)
  refine ⟨by decide, ?_⟩
  rw [isPublicEmbyPath, if_neg (by decide)]
  split
  · rfl
  · decide

theorem proxyUpstream_none_task {auth : Option Store} {req : Request} {conn : ConnInfo}
    {client : Client} {out : OutRequest} {task : UpstreamTask}
    (sent : proxy.proxyUpstream crates auth req conn none = .send client out (.upstream task)) :
    task.req = req ∧ task.logout = none := by
  obtain ⟨_, same, asked, token⟩ := proxy.proxyUpstream_task crates sent
  cases same
  exact ⟨asked, token⟩

/-- The token that is forgotten is that of a logout with a session of the route. -/
theorem handleWithAuth_task {world : World} {store : Store} {env : Env} {req : Request}
    {conn : ConnInfo} {client : Client} {out : OutRequest} {task : UpstreamTask}
    (sent : (proxy.handleWithAuth crates world store env req conn).flow =
      .send client out (.upstream task)) :
    task.req = req ∧ ∀ token, task.logout = some token ↔
      matchSegments (embyPathSegments req.path) ["sessions", "logout"] = true ∧
        requestToken req.headers req.query = some token ∧
        store.isValid token proxy.routeKey = true := by
  rw [handleWithAuth] at sent
  split at sent
  · exact absurd sent (proxy.not_upstream_of_proxyResource crates)
  · dsimp only at sent
    split at sent
    · cases sent
    · split at sent
      · next isPublic =>
          obtain ⟨asked, none⟩ := proxy.proxyUpstream_none_task crates sent
          refine ⟨asked, fun token => iff_of_false (by simp [none]) ?_⟩
          rintro ⟨logout, -⟩
          rw [(logout_segments logout req.method).2] at isPublic
          cases isPublic
      · split at sent
        · cases sent
        · next given asks =>
            split at sent
            · next valid =>
                split at sent
                · cases sent
                · next client' out' task' forwarded =>
                    cases sent
                    obtain ⟨_, same, asked, token⟩ := proxy.proxyUpstream_task crates forwarded
                    cases same
                    refine ⟨asked, fun token' => ?_⟩
                    rw [token, asks, Option.ite_none_right_eq_some, Option.some.injEq]
                    refine and_congr_right fun _ => ⟨?_, fun same => same.1⟩
                    rintro rfl
                    exact ⟨rfl, valid⟩
            · cases sent

/-- What waits for the upstream: it has the token of its request to forget, if that is a logout
with a session of the route. -/
theorem task_of_sent {world : World} {env : Env} {req : Request} {conn : ConnInfo}
    {client : Client} {out : OutRequest} {task : UpstreamTask}
    (sent : (proxy.handleChecked crates world env req conn).flow =
      .send client out (.upstream task)) :
    task.req = req ∧ ∀ token, task.logout = some token ↔
      matchSegments (embyPathSegments req.path) ["sessions", "logout"] = true ∧
        requestToken req.headers req.query = some token ∧
        ∃ store, world.auth = some store ∧ store.isValid token proxy.routeKey = true := by
  rw [handleChecked] at sent
  split at sent
  · cases sent
  · split at sent
    · next store auth =>
        simpa [auth] using proxy.handleWithAuth_task crates sent
    · next auth =>
        rw [routeRequest] at sent
        split at sent
        · exact absurd sent (proxy.not_upstream_of_proxyResource crates)
        · obtain ⟨asked, none⟩ := proxy.proxyUpstream_none_task crates sent
          exact ⟨asked, fun token => iff_of_false (by simp [none]) (by simp [auth])⟩

end RouteProxy

end Proxemby
