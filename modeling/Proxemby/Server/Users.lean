import Proxemby.Server.Resource

/-!
# Sessions and the allowed users

The list of users is read when a login is answered and never again.  A session that the
state file brings along is taken as it is, so a list that has become shorter binds only
the logins to come.
-/

namespace Proxemby

open Text

/-- The user of a session is on the list of a configuration. -/
def Config.Admits (crates : Crates) (cfg : Config) (session : Session) : Prop :=
  crates.toLowercase session.userName ∈ cfg.allowedUsers.map crates.toLowercase

instance (crates : Crates) (cfg : Config) (session : Session) :
    Decidable (cfg.Admits crates session) :=
  inferInstanceAs (Decidable (_ ∈ _))

/-- A session that some request to a route of a configuration can use. -/
structure Config.Reaches (cfg : Config) (token : Str) (session : Session) : Prop where
  carried : ∃ headers query, requestToken headers query = some token
  route : ∃ route ∈ cfg.routes, toAsciiLowercase route.publicUrl.hostname = session.route

section

variable (crates : Crates)

/-- Every session that requests can use belongs to an allowed user. -/
def SessionsAllowed (cfg : Config) (sessions : Sessions) : Prop :=
  ∀ token session, sessions.lookup token = some session → cfg.Reaches token session →
    cfg.Admits crates session

/-- The state file that a process with allowed users starts with has sessions of those
users only. -/
def System.StartsAllowed (system : System) : Event → Prop
  | .process _ => True
  | .start cfg env => cfg.allowedUsers ≠ [] → ∀ secret sessions,
      Store.load crates.toStoreCrates cfg.statePath system.disk env = .ok (secret, sessions) →
        SessionsAllowed crates cfg sessions

/-- The sessions of a process of a configuration with allowed users. -/
structure Server.KeepsUsers (cfg : Config) (server : Server) (state : State) : Prop where
  routes : ∃ auth, server = Server.withStats crates cfg auth
  auth : state.auth.isSome = true
  sessions : ∀ store ∈ state.auth, SessionsAllowed crates cfg store.sessions

end

variable {crates : Crates} {cfg : Config}

/-- Logins add the sessions of allowed users only. -/
theorem Server.KeepsUsers.next {server : Server} {state : State}
    (keeps : Server.KeepsUsers crates cfg server state) (input : Input) :
    Server.KeepsUsers crates cfg server ((server.machine crates).next state input) := by
  have identity := congrArg Option.isSome (server.next_identity crates state input)
  rw [Option.isSome_map, Option.isSome_map, keeps.auth] at identity
  refine ⟨keeps.routes, identity, ?_⟩
  intro store auth token session found reaches
  have after : ((server.machine crates).next state input).session? token = some session := by
    rw [State.session?, Option.mem_def.mp auth, Option.bind_some, found]
  rcases server.next_session? crates after with before | stored
  · obtain ⟨old, known, present⟩ := Option.bind_eq_some_iff.mp before
    exact keeps.sessions old known token session present reaches
  · obtain ⟨id, result, env, key, proxy, task, login, -, resumes, accepts, -, rfl⟩ := stored
    obtain ⟨auth', rfl⟩ := keeps.routes
    obtain ⟨route, -, rfl, -⟩ := Server.lookup_withStats resumes.route
    exact accepts.user

theorem Server.keepsUsers_boot {disk disk' : Disk} {env : Env} {server : Server} {state : State}
    (users : cfg.allowedUsers ≠ [])
    (booted : boot crates cfg disk env = (disk', .ok (server, state)))
    (starts : (System.down disk).StartsAllowed crates (.start cfg env)) :
    Server.KeepsUsers crates cfg server state := by
  obtain ⟨store, opened, rfl, rfl⟩ := boot_users users booted
  obtain ⟨secret, sessions, loaded, -, same, -⟩ := Store.open_spec opened
  refine ⟨⟨_, rfl⟩, rfl, ?_⟩
  intro store' member
  rw [Server.initial, Option.mem_some_iff] at member
  subst member
  rw [same]
  exact starts users secret sessions loaded

/-- Every process of a system keeps the sessions of its own allowed users, when all state
files do. -/
theorem System.run_keepsUsers {disk : Disk} {events : List Event}
    (starts : (System.machine crates).Along (System.StartsAllowed crates) (.down disk) events)
    {server : Server} {state : State} (users : cfg.allowedUsers ≠ [])
    (reached : (System.machine crates).run (.down disk) events = .up cfg server state) :
    Server.KeepsUsers crates cfg server state := by
  have invariant := (System.machine crates).run_invariant_along
    (fun system => ∀ cfg server state, cfg.allowedUsers ≠ [] →
      system = .up cfg server state → Server.KeepsUsers crates cfg server state)
    ?step (by simp) starts
  case step =>
    intro system event starts before cfg server state users after
    cases event with
    | process input =>
        cases system with
        | down disk => cases after
        | up cfg' server' state' =>
            cases after
            exact (before _ _ _ users rfl).next input
    | start cfg' env =>
        simp only [Machine.next, System.machine, System.step] at after
        split at after
        · cases after
        · next booted =>
            cases after
            exact Server.keepsUsers_boot users booted starts
  exact invariant cfg server state users reached

/-- A request has the token of a session of an allowed user on this route. -/
def RouteProxy.HasAllowedToken (crates : Crates) (cfg : Config) (proxy : RouteProxy)
    (store : Store) (req : Request) : Prop :=
  ∃ token session, requestToken req.headers req.query = some token ∧
    store.sessions.lookup token = some session ∧ session.route = proxy.routeKey ∧
    cfg.Admits crates session

/-- Every request that a token admits has the token of a session of a user who is allowed
now, in every process of a system whose starts all find the sessions of allowed users. -/
theorem System.token_allowed {disk : Disk} {events : List Event}
    (starts : (System.machine crates).Along (System.StartsAllowed crates) (.down disk) events)
    {server : Server} {state : State} (users : cfg.allowedUsers ≠ [])
    (reached : (System.machine crates).run (.down disk) events = .up cfg server state) :
    ∃ store, state.auth = some store ∧
      ∀ key proxy, server.routes.lookup key = some proxy → ∀ req,
        (resourcePrefix.isPrefixOf req.path = false →
          matchSegments (embyPathSegments req.path) ["users", "public"] = false →
          isPublicEmbyPath req.method (embyPathSegments req.path) = false → ∀ env conn,
          (proxy.handleWithAuth crates (state.world key) store env req conn).flow ≠
            .answer unauthorized →
          proxy.HasAllowedToken crates cfg store req) ∧
        ∀ parts, resourceParts true req.path = .ok parts → isHttpScheme parts.first = true →
          proxy.resourceAuthorized crates (some store) req parts = true →
          proxy.HasAllowedToken crates cfg store req := by
  have keeps := System.run_keepsUsers starts users reached
  obtain ⟨store, auth⟩ := Option.isSome_iff_exists.mp keeps.auth
  refine ⟨store, auth, ?_⟩
  intro key proxy route req
  have allowed : ∀ token session, requestToken req.headers req.query = some token →
      store.sessions.lookup token = some session → session.route = proxy.routeKey →
      proxy.HasAllowedToken crates cfg store req := by
    intro token session carried found named
    obtain ⟨auth', rfl⟩ := keeps.routes
    obtain ⟨known, member, rfl, -⟩ := Server.lookup_withStats route
    exact ⟨token, session, carried, found, named, keeps.sessions store auth token session found
      ⟨⟨_, _, carried⟩, known, member, named.symm⟩⟩
  constructor
  · intro outside notUsers notPublic env conn passed
    by_contra noToken
    have closed : ¬proxy.GateOpen store req := by
      rintro (isPublic | ⟨token, session, carried, found, named⟩)
      · rw [notPublic] at isPublic
        cases isPublic
      · exact noToken (allowed token session carried found named)
    rw [proxy.handleWithAuth_closed crates env conn outside closed, notUsers] at passed
    exact passed rfl
  · intro parts cut unsigned authorized
    rcases proxy.resourceAuthorized_some crates authorized with
      ⟨signed, -⟩ | ⟨-, token, session, carried, found, named⟩
    · rw [unsigned] at signed
      cases signed
    · exact allowed token session carried found named

/-- `ken` logs in, and comes back with the token. -/
theorem System.token_allowed_login :
    ∃ (proxy : RouteProxy) (store : Store), proxy.HasAllowedToken Reference.crates
      (Reference.config ["ken"] []) store
      (Reference.request .get "/emby/Items" none [("x-emby-token", "tok")]) := by
  have starts : (System.machine Reference.crates).Along (System.StartsAllowed Reference.crates)
      (.down fun _ => none)
      (.start (Reference.config ["ken"] []) Reference.env :: Reference.login.map .process) := by
    intro before event after split
    cases before with
    | nil =>
        obtain ⟨rfl, -⟩ := List.cons.inj split
        intro users secret sessions loaded token session found
        cases loaded
        simp at found
    | cons first before =>
        have member : event ∈ Reference.login.map Event.process := by
          rw [(List.cons.inj split).2]
          simp
        obtain ⟨input, -, rfl⟩ := List.mem_map.mp member
        trivial
  obtain ⟨server, state, reached, flow⟩ : ∃ server state,
      (System.machine Reference.crates).run (.down fun _ => none)
        (.start (Reference.config ["ken"] []) Reference.env :: Reference.login.map .process) =
          .up (Reference.config ["ken"] []) server state ∧
      ∃ proxy store, state.auth = some store ∧
        server.routes.lookup "proxemby".toList = some proxy ∧
        (proxy.handleWithAuth Reference.crates (state.world "proxemby".toList) store Reference.env
          (Reference.request .get "/emby/Items" none [("x-emby-token", "tok")])
          Reference.conn).flow ≠ .answer unauthorized :=
    ⟨_, _, rfl, _, _, rfl, rfl, by decide +kernel⟩
  obtain ⟨proxy, store, auth, route, passed⟩ := flow
  obtain ⟨store', auth', admitted⟩ := System.token_allowed starts (by decide) reached
  rw [auth, Option.some.injEq] at auth'
  subst auth'
  exact ⟨proxy, store, (admitted _ proxy route _).1 (by decide +kernel) (by decide +kernel)
    (by decide +kernel) _ _ passed⟩

/-- `ken` logs in, and keeps the session when a restart takes him off the list. -/
theorem System.token_kept :
    let system := (System.machine Reference.crates).run (.down fun _ => none)
      (.start (Reference.config ["ken"] []) Reference.env :: Reference.login.map .process ++
        [.start (Reference.config ["other"] []) Reference.env])
    (match system with
      | .up cfg _ state => (state.session? "tok".toList).map fun session =>
          (session.userName, decide (cfg.Admits Reference.crates session))
      | .down _ => none) = some ("ken".toList, false) ∧
    ((System.machine Reference.crates).outputs system
      (.process (.request (Reference.request .get "/emby/Items" none [("x-emby-token", "tok")])
        Reference.conn Reference.env))).map (fun output =>
          match output with
          | .sent key _ out => some (key, out.uri)
          | .answered _ => none) =
      [some ("proxemby".toList, "http://emby:8096/emby/Items".toList)] := by
  decide +kernel

end Proxemby
