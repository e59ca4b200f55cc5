import Proxemby.Server.Resource

/-!
# Who makes the rewriter run

The rewriter runs on the answers to PlaybackInfo requests, and its URLs carry
signatures.  Whether a request needs a token is decided by another rule over the same
path, and the two rules overlap.
-/

namespace Proxemby

open Text

namespace RouteProxy

variable (crates : Crates) (proxy : RouteProxy)

/-- The token of a request has a session on this route. -/
def HasSession (store : Store) (req : Request) : Prop :=
  ∃ token session, requestToken req.headers req.query = some token ∧
    store.sessions.lookup token = some session ∧ session.route = proxy.routeKey

/-- A request that passes the gate as a public one, and whose answer is a PlaybackInfo
answer all the same. -/
def IsPublicPlayback (req : Request) : Prop :=
  isPublicEmbyPath req.method (embyPathSegments req.path) = true ∧
    isPlaybackInfoPath req.path = true ∧ isLoginPath req.path = false

/-- The handler that a request leaves waiting is for that request: one of `proxy_resource`
inside `/_proxy/`, and one of `proxy_upstream` that has passed the gate outside. -/
theorem handleChecked_task {world : World} {store : Store} {env : Env} {req : Request}
    {conn : ConnInfo} {client : Client} {out : OutRequest} {task : Task}
    (auth : world.auth = some store)
    (sent : (proxy.handleChecked crates world env req conn).flow = .send client out task) :
    (resourcePrefix.isPrefixOf req.path = true ∧ task = .resource req) ∨
      (resourcePrefix.isPrefixOf req.path = false ∧ proxy.GateOpen store req ∧
        ∃ upstream : UpstreamTask, task = .upstream upstream ∧ upstream.req = req) := by
  cases inside : resourcePrefix.isPrefixOf req.path with
  | true =>
      have forwarded := proxy.proxyResource_of_sent crates inside sent
      obtain ⟨-, -, -, -, -, -, -, rfl⟩ := (proxy.proxyResource_eq_send crates).mp forwarded
      exact .inl ⟨rfl, rfl⟩
  | false =>
      have gate : proxy.GateOpen store req := by
        by_contra closed
        rw [handleChecked, auth] at sent
        split at sent
        · cases sent
        · dsimp only at sent
          rw [proxy.handleWithAuth_closed crates env conn inside closed] at sent
          cases sent
      refine .inr ⟨rfl, gate, ?_⟩
      rw [handleChecked, auth] at sent
      split at sent
      · cases sent
      · simp only [handleWithAuth, inside, Bool.false_eq_true, ↓reduceIte] at sent
        split at sent
        · cases sent
        · split at sent
          · obtain ⟨upstream, same, req', -⟩ := proxy.proxyUpstream_task crates sent
            exact ⟨upstream, same, req'⟩
          · split at sent
            · cases sent
            · split at sent
              · split at sent
                · cases sent
                · next forwarded =>
                    cases sent
                    obtain ⟨upstream, same, req', -⟩ := proxy.proxyUpstream_task crates forwarded
                    exact ⟨upstream, same, req'⟩
              · cases sent

/-- An empty JSON answer to a PlaybackInfo request runs the rewriter. -/
theorem runsRewriter_empty {auth : Option Store} {task : UpstreamTask}
    (path : isPlaybackInfoPath task.req.path = true) (noLogin : isLoginPath task.req.path = false) :
    proxy.RunsRewriter crates auth task
      (.reply {
        status := 200
        headers := ⟨[("content-type".toList, .fromStatic "application/json")]⟩
        frames := [] }) [] where
  path := path
  notLogin _ := noLogin
  answer := by
    have headers : removeHopByHop
        ⟨[("content-type".toList, .fromStatic "application/json")]⟩ =
        ⟨[("content-type".toList, .fromStatic "application/json")]⟩ := by
      decide +kernel
    have noCoding : HeaderMap.get ⟨[("content-type".toList,
        .fromStatic "application/json")]⟩ "content-encoding".toList = none := by
      decide +kernel
    refine ⟨_, rfl, by simp, ?_, ?_⟩
    · rw [headers]
      decide +kernel
    · rw [headers, readBody]
      dsimp only [collectFrames]
      rw [noCoding]
      rfl

end RouteProxy

namespace Server

variable (crates : Crates) (server : Server)

/-- The waiting handlers have the numbers that have been given out, and each number is
given out once. -/
theorem next_tasks {state : State} {id : Nat} {waiting : Str × Task} (input : Input)
    (given : id < state.nextTask)
    (unique : ∀ other, state.tasks id = some other → other = waiting) :
    id < ((server.machine crates).next state input).nextTask ∧
      ∀ other, ((server.machine crates).next state input).tasks id = some other →
        other = waiting := by
  refine ⟨given.trans_le (server.nextTask_le crates state input), ?_⟩
  rintro ⟨key, task⟩ found
  rcases server.next_task crates found with earlier | ⟨rfl, -⟩
  · exact unique _ earlier
  · exact absurd given (Nat.lt_irrefl _)

/-- The handler of a request that has been sent waits under the next number. -/
theorem next_sent {state : State} {req : Request} {conn : ConnInfo} {env : Env}
    {proxy : RouteProxy} {client : Client} {out : OutRequest} {task : Task}
    (route : server.routes.lookup (hostKey req) = some proxy)
    (flow : (proxy.handleChecked crates (state.world (hostKey req)) env req conn).flow =
      .send client out task) :
    ((server.machine crates).next state (.request req conn env)).nextTask = state.nextTask + 1 ∧
      ((server.machine crates).next state (.request req conn env)).tasks state.nextTask =
        some (hostKey req, task) := by
  simp [Machine.next, machine, step, route, flow, State.withWorld]

/-- The handler of a request that has been sent is the one that waits under its number,
for as long as any does. -/
theorem run_task {state : State} {req : Request} {conn : ConnInfo} {env : Env}
    {proxy : RouteProxy} {client : Client} {out : OutRequest} {task : Task}
    (route : server.routes.lookup (hostKey req) = some proxy)
    (flow : (proxy.handleChecked crates (state.world (hostKey req)) env req conn).flow =
      .send client out task) (later : List Input) {waiting : Str × Task}
    (found : ((server.machine crates).run
      ((server.machine crates).next state (.request req conn env)) later).tasks state.nextTask =
        some waiting) : waiting = (hostKey req, task) := by
  obtain ⟨next, waits⟩ := server.next_sent crates route flow
  have invariant := (server.machine crates).run_invariant
    (fun after => state.nextTask < after.nextTask ∧
      ∀ other, after.tasks state.nextTask = some other → other = (hostKey req, task))
    (fun _ input holds => server.next_tasks crates input holds.1 holds.2)
    ⟨by rw [next]; exact Nat.lt_succ_self _, fun other same => by
      rw [waits, Option.some.injEq] at same
      exact same.symm⟩ later
  exact invariant.2 waiting found

/-- When the rewriter runs for sessions only.  A request that has been sent makes the
rewriter run without the token of a session exactly when it is a public PlaybackInfo
request without one. -/
theorem rewriter_authorized_iff {cfg : Config} {disk disk' : Disk} {env : Env} {server : Server}
    {start : State} (users : cfg.allowedUsers ≠ [])
    (booted : boot crates cfg disk env = (disk', .ok (server, start))) (earlier : List Input)
    {store : Store} (auth : ((server.machine crates).run start earlier).auth = some store)
    {req : Request} {conn : ConnInfo} {env' : Env} {proxy : RouteProxy}
    (route : server.routes.lookup (hostKey req) = some proxy)
    (sent : ∃ key client out, Output.sent key client out ∈ (server.machine crates).outputs
      ((server.machine crates).run start earlier) (.request req conn env')) :
    (∀ later state, state = (server.machine crates).run start
          (earlier ++ .request req conn env' :: later) →
        ∀ task, state.tasks ((server.machine crates).run start earlier).nextTask =
            some (hostKey req, .upstream task) →
          ∀ result body, proxy.RunsRewriter crates state.auth task result body →
            proxy.HasSession store req) ↔
      resourcePrefix.isPrefixOf req.path = true ∨ proxy.HasSession store req ∨
        ¬RouteProxy.IsPublicPlayback req := by
  obtain ⟨key, client, out, output⟩ := sent
  obtain ⟨proxy', task, route', rfl, flow⟩ := sent_of_request crates server output
  rw [route, Option.some.injEq] at route'
  subst route'
  have waits := @RouteProxy.handleChecked_task crates proxy
    (((server.machine crates).run start earlier).world (hostKey req)) _ _ _ _ _ _ _ auth flow
  constructor
  · intro always
    rcases waits with ⟨inside, -⟩ | ⟨outside, -, upstream, rfl, same⟩
    · exact .inl inside
    · -- The next thing to happen is an empty answer.
      refine .inr ?_
      by_contra neither
      rw [not_or, not_not] at neither
      obtain ⟨noSession, isPublic, playback, noLogin⟩ := neither
      refine noSession (always [] _ rfl upstream ?_ _ _
        (proxy.runsRewriter_empty crates (by rw [same]; exact playback)
          (by rw [same]; exact noLogin)))
      rw [Machine.run_append, Machine.run_cons, Machine.run_nil]
      exact (server.next_sent crates route flow).2
  · rintro allowed later state rfl task' waiting result body runs
    rw [Machine.run_append, Machine.run_cons] at waiting runs
    have same := server.run_task crates route flow later waiting
    rw [Prod.mk.injEq] at same
    obtain ⟨-, rfl⟩ := same
    rcases waits with ⟨-, other⟩ | ⟨outside, gate, upstream, equal, named⟩
    · cases other
    · cases equal
      rcases allowed with inside | session | notPlayback
      · rw [outside] at inside
        cases inside
      · exact session
      · rcases gate with isPublic | session
        · have isSome := (run_auth_isSome crates booted
            (earlier ++ .request req conn env' :: later)).mpr users
          rw [Machine.run_append, Machine.run_cons] at isSome
          refine absurd ⟨isPublic, ?_, ?_⟩ notPlayback
          · rw [← named]
            exact runs.path
          · rw [← named]
            exact runs.notLogin isSome
        · exact session

/-- An image request without a token, whose answer the rewriter may not see: an image is
public, but its path names no PlaybackInfo. -/
theorem rewriter_authorized_iff_image :
    ∃ (proxy : RouteProxy) (store : Store), ∀ later state,
      state = ((Reference.server (Reference.config ["ken"] [])).machine Reference.crates).run
        (Reference.start (Reference.config ["ken"] []))
        ([] ++ .request (Reference.request .get "/emby/Items/1/Images/Primary" none [])
          Reference.conn Reference.env :: later) →
      ∀ task, state.tasks 0 = some ("proxemby".toList, .upstream task) →
        ∀ result body, proxy.RunsRewriter Reference.crates state.auth task result body →
          proxy.HasSession store
            (Reference.request .get "/emby/Items/1/Images/Primary" none []) := by
  obtain ⟨proxy, route⟩ : ∃ proxy, (Reference.server (Reference.config ["ken"] [])).routes.lookup
      "proxemby".toList = some proxy := ⟨_, rfl⟩
  refine ⟨proxy, Reference.store, (@rewriter_authorized_iff Reference.crates _ _ _ _ _ _
      (by decide) (@Reference.boot_eq (Reference.config ["ken"] []) (by decide) rfl) [] _ rfl
      (Reference.request .get "/emby/Items/1/Images/Primary" none []) Reference.conn
      Reference.env _ route
      ⟨"proxemby".toList, .default, ⟨.get, "http://emby:8096/emby/Items/1/Images/Primary".toList,
      ⟨[("x-forwarded-for".toList, Utf8.encode "127.0.0.1".toList),
        ("x-forwarded-host".toList, Utf8.encode "proxemby".toList),
        ("x-forwarded-proto".toList, Utf8.encode "http".toList)]⟩⟩, by decide +kernel⟩).mpr ?_⟩
  refine .inr (.inr ?_)
  rintro ⟨-, playback, -⟩
  revert playback
  decide +kernel

/-- A request for a file of the web client, without a token, gets a signed URL. -/
theorem rewriter_unauthorized :
    let process := (Reference.server (Reference.config ["ken"] [])).machine Reference.crates
    let start := Reference.start (Reference.config ["ken"] [])
    let input := Input.request (Reference.request .get "/web/PlaybackInfo" none [])
      Reference.conn Reference.env
    requestToken (Reference.request .get "/web/PlaybackInfo" none []).headers none = none ∧
    (process.outputs (process.next start input)
      (.reply 0 (Reference.answer "application/json" Reference.playbackBody)
        Reference.env)).map (fun output =>
          match output with
          | .sent _ _ _ => none
          | .answered response => some response.body) =
      [some (.full (Utf8.encode ("\x7b\"Path\":\"http://proxemby/_proxy/".toList ++
        "9v9k6nr-3M8Yf8oREu-yhQ/https/cdn.example.com/movie.mkv\"\x7d".toList)))] := by
  decide +kernel

end Server

end Proxemby
