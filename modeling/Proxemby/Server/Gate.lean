import Proxemby.Server.Invariants
import Proxemby.Server.Reference

/-!
# The gate

With allowed users set, a request outside `/_proxy/` gets to the upstream only through
a public endpoint or with the token of a session, and sessions come from logins of
allowed users alone.
-/

namespace Proxemby

open Text

namespace RouteProxy

variable (crates : Crates) (proxy : RouteProxy)

/-- What lets a request outside `/_proxy/` through to the upstream: a public endpoint,
or a token with a session on this route. -/
def GateOpen (store : Store) (req : Request) : Prop :=
  isPublicEmbyPath req.method (embyPathSegments req.path) = true ∨
    ∃ token session, requestToken req.headers req.query = some token ∧
      store.sessions.lookup token = some session ∧ session.route = proxy.routeKey

/-- A request that the gate stops is answered at once and changes nothing. -/
theorem handleWithAuth_closed {world : World} {store : Store} (env : Env) {req : Request}
    (conn : ConnInfo) (outside : resourcePrefix.isPrefixOf req.path = false)
    (closed : ¬proxy.GateOpen store req) :
    proxy.handleWithAuth crates world store env req conn = ⟨world, .answer
      (if matchSegments (embyPathSegments req.path) ["users", "public"] then publicUsers
        else unauthorized)⟩ := by
  simp only [GateOpen, not_or, Bool.not_eq_true] at closed
  obtain ⟨notPublic, noSession⟩ := closed
  simp only [handleWithAuth, outside, notPublic, Bool.false_eq_true, ↓reduceIte]
  split
  · rfl
  · cases sent : requestToken req.headers req.query with
    | none => rfl
    | some token =>
        have invalid : store.isValid token proxy.routeKey = false := by
          rw [← Bool.not_eq_true, Store.isValid_iff]
          rintro ⟨-, session, found, named⟩
          exact noSession ⟨token, session, sent, found, named⟩
        simp [invalid]

end RouteProxy

namespace Server

variable (crates : Crates) (server : Server)

/-- What a request step sends is what the handler of its route sends. -/
theorem sent_of_request {state : State} {req : Request} {conn : ConnInfo} {env : Env}
    {key : Str} {client : Client} {out : OutRequest}
    (sent : Output.sent key client out ∈
      (server.machine crates).outputs state (.request req conn env)) :
    ∃ proxy task, server.routes.lookup (hostKey req) = some proxy ∧ key = hostKey req ∧
      (proxy.handleChecked crates (state.world (hostKey req)) env req conn).flow =
        .send client out task := by
  simp only [Machine.outputs, machine, step] at sent
  cases route : server.routes.lookup (hostKey req) with
  | none => simp [route] at sent
  | some proxy =>
      simp only [route] at sent
      cases flow : (proxy.handleChecked crates (state.world (hostKey req)) env req conn).flow with
      | answer response => simp [flow] at sent
      | send client' out' task =>
          simp only [flow, List.mem_singleton, Output.sent.injEq] at sent
          obtain ⟨rfl, rfl, rfl⟩ := sent
          exact ⟨proxy, task, rfl, rfl, flow⟩

/-- The session was in the state file when the process started, and has been in the
map since. -/
structure FromFile (cfg : Config) (disk : Disk) (env : Env) (start : State)
    (inputs : List Input) (token : Str) (session : Session) : Prop where
  loaded : ∃ secret sessions,
    Store.load crates.toStoreCrates cfg.statePath disk env = .ok (secret, sessions) ∧
      sessions.lookup token = some session
  since : (server.machine crates).Throughout (·.session? token = some session) start inputs

/-- The session was stored on the answer to a login through the route it names, and has
been in the map since: no logout has removed it. -/
def FromLogin (start : State) (inputs : List Input) (token : Str) (session : Session) : Prop :=
  ∃ before input later, inputs = before ++ input :: later ∧
    server.StoresSession crates ((server.machine crates).run start before) token session input ∧
    (server.machine crates).Throughout (·.session? token = some session)
      ((server.machine crates).next ((server.machine crates).run start before) input) later

/-- Soundness of the gate, in the state after any run of a process with allowed users.
Every session comes from the state file or from a login of an allowed user.  A request
outside `/_proxy/` is sent upstream only when the gate is open; when it is closed the
request is answered with 401, or with the fixed list of users. -/
theorem gate_sound {cfg : Config} {disk disk' : Disk} {env : Env} {server : Server}
    {start : State} (users : cfg.allowedUsers ≠ [])
    (booted : boot crates cfg disk env = (disk', .ok (server, start))) (inputs : List Input) :
    (∀ key proxy, server.routes.lookup key = some proxy →
      proxy.routeKey = key ∧ proxy.allowedUsers = cfg.allowedUsers.map crates.toLowercase) ∧
    ∃ store, ((server.machine crates).run start inputs).auth = some store ∧
      (∀ token session, store.sessions.lookup token = some session →
        server.FromFile crates cfg disk env start inputs token session ∨
          server.FromLogin crates start inputs token session) ∧
      ∀ req conn env proxy, server.routes.lookup (hostKey req) = some proxy →
        resourcePrefix.isPrefixOf req.path = false →
        ((∃ key client out, Output.sent key client out ∈ (server.machine crates).outputs
            ((server.machine crates).run start inputs) (.request req conn env)) →
          proxy.GateOpen store req) ∧
        (¬proxy.GateOpen store req →
          proxy.handleWithAuth crates
              (((server.machine crates).run start inputs).world (hostKey req)) store env req
              conn =
            ⟨((server.machine crates).run start inputs).world (hostKey req), .answer
              (if matchSegments (embyPathSegments req.path) ["users", "public"] then publicUsers
                else unauthorized)⟩) := by
  obtain ⟨opened, openedStore, rfl, rfl⟩ := boot_users users booted
  obtain ⟨secret, sessions, loaded, -, loadedSessions, -⟩ := Store.open_spec openedStore
  constructor
  · intro key proxy found
    obtain ⟨route, -, rfl, rfl⟩ := lookup_withStats found
    exact ⟨rfl, rfl⟩
  · have identity := run_identity crates (withStats crates cfg (some opened))
      (initial cfg (some opened) disk') inputs
    obtain ⟨store, auth, -⟩ := Option.map_eq_some_iff.mp identity
    refine ⟨store, auth, ?_, ?_⟩
    · intro token session found
      rcases @run_session? crates (withStats crates cfg (some opened))
          (initial cfg (some opened) disk') inputs token session
          (by rw [State.session?, auth]; exact found) with
        throughout | stored
      · refine .inl ⟨⟨secret, sessions, loaded, ?_⟩, throughout⟩
        rw [← loadedSessions]
        exact throughout.first
      · exact .inr stored
    · intro req conn env proxy route outside
      constructor
      · rintro ⟨key, client, out, sent⟩
        obtain ⟨proxy', task, route', -, flow⟩ := sent_of_request crates _ sent
        rw [route, Option.some.injEq] at route'
        subst route'
        by_contra closed
        rw [RouteProxy.handleChecked] at flow
        split at flow
        · cases flow
        · simp only [State.world, auth] at flow
          rw [proxy.handleWithAuth_closed crates env conn outside closed] at flow
          cases flow
      · exact proxy.handleWithAuth_closed crates env conn outside

/-- A login of `ken`, and a request with the token of the login. -/
theorem gate_sound_login :
    ∃ store, (((Reference.server (Reference.config ["ken"] [])).machine Reference.crates).run
        (Reference.start (Reference.config ["ken"] [])) Reference.login).auth = some store ∧
      ∃ proxy : RouteProxy, proxy.routeKey = "proxemby".toList ∧ proxy.GateOpen store
        (Reference.request .get "/emby/Items" none [("x-emby-token", "tok")]) := by
  obtain ⟨routes, store, auth, -, gate⟩ := gate_sound Reference.crates (by decide)
    (@Reference.boot_eq (Reference.config ["ken"] []) (by decide) rfl)
    Reference.login
  obtain ⟨proxy, route⟩ : ∃ proxy, (Reference.server (Reference.config ["ken"] [])).routes.lookup
      "proxemby".toList = some proxy := ⟨_, rfl⟩
  refine ⟨store, auth, proxy, (routes _ _ route).1, ?_⟩
  refine (gate (Reference.request .get "/emby/Items" none [("x-emby-token", "tok")])
    Reference.conn Reference.env proxy route (by decide +kernel)).1
      ⟨"proxemby".toList, .default, ⟨.get, "http://emby:8096/emby/Items".toList,
        ⟨[("x-emby-token".toList, Utf8.encode "tok".toList),
          ("x-forwarded-for".toList, Utf8.encode "127.0.0.1".toList),
          ("x-forwarded-host".toList, Utf8.encode "proxemby".toList),
          ("x-forwarded-proto".toList, Utf8.encode "http".toList)]⟩⟩, ?_⟩
  decide +kernel

end Server

end Proxemby
