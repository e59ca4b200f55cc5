import Proxemby.Server.Invariants
import Proxemby.Server.Reference

/-!
# Sessions of other routes

All routes share one map of sessions, which has one session for a token whatever its
route.  A step of one route touches the token that an accepted login brings and the token
that a logout forgets.
-/

namespace Proxemby

/-- Whether a token is valid on a route. -/
def World.isValid (world : World) (token route : Str) : Bool :=
  world.auth.any fun store => store.isValid token route

/-- Whether a token is valid on a route. -/
def State.isValid (state : State) (token route : Str) : Bool :=
  state.auth.any fun store => store.isValid token route

/-- A token has one route. -/
theorem Store.isValid_unique {store : Store} {token first second : Str}
    (here : store.isValid token first = true) (there : store.isValid token second = true) :
    first = second := by
  obtain ⟨-, session, found, rfl⟩ := isValid_iff.mp here
  obtain ⟨-, other, found', rfl⟩ := isValid_iff.mp there
  rw [found, Option.some.injEq] at found'
  rw [found']

namespace RouteProxy

variable (crates : Crates) (proxy : RouteProxy)

/-- A handler that goes on touches the tokens of its logout and of the login it accepts. -/
def TouchesToken (task : UpstreamTask) (result : SendResult) (token : Str) : Prop :=
  task.logout = some token ∨
    ∃ login, proxy.AcceptsLogin crates task result login ∧ login.token = token

variable {crates proxy}

theorem isValid_removeSession_of_ne (world : World) (env : Env) {logout : Option Str}
    {token : Str} (other : logout ≠ some token) (route : Str) :
    (removeSession crates world env logout).isValid token route = world.isValid token route := by
  unfold removeSession
  split
  · next gone store auth =>
      have differ : token ≠ gone := fun same => other (by rw [same])
      simp only [World.isValid, auth, Option.any_some, Store.isValid, Store.remove_fst,
        Finmap.lookup_erase_ne differ]
  · rfl

theorem isValid_removeSession (world : World) (env : Env) (token route : Str) :
    (removeSession crates world env (some token)).isValid token route = false := by
  cases auth : world.auth with
  | none => simp [removeSession, World.isValid, auth]
  | some store =>
      simp [removeSession, World.isValid, auth, Store.isValid, Store.remove_fst]

/-- The session of an accepted login is not one of another route. -/
theorem isValid_insert (store : Store) (env : Env) (login : LoginReply) {route : Str}
    (other : route ≠ proxy.routeKey) :
    ({ store with sessions := store.sessions.insert login.token (proxy.sessionOf env login) } :
      Store).isValid login.token route = false := by
  have differ : ¬proxy.routeKey = route := fun same => other same.symm
  simp [Store.isValid, sessionOf, Session.new, differ]

/-- The answer to an accepted login is given after the session is stored, and held back
when it cannot be written. -/
theorem handleLoginResponse_of_accepts {world : World} {store : Store} {env : Env}
    {reply : Reply} {outPath : Str} {body : Bytes} {login : LoginReply}
    (status : reply.status = 200) (read : proxy.readBody crates reply = .ok body)
    (parsed : login = LoginReply.ofJson ((crates.parseJson body).getD .null))
    (token : login.token ≠ [])
    (user : crates.toLowercase login.userName ∈ proxy.allowedUsers) :
    ∃ disk response, proxy.handleLoginResponse crates world store env reply outPath =
        ⟨{ world with
            auth := some { store with
              sessions := store.sessions.insert login.token (proxy.sessionOf env login) }
            disk }, response, []⟩ ∧
      (response = emptyResponse 502 ∨ response = fullResponse reply body) := by
  subst parsed
  have added := @Store.add_fst crates.toStoreCrates store world.disk env _ token
    (proxy.sessionOf env (LoginReply.ofJson ((crates.parseJson body).getD .null)))
  rw [sessionOf] at added
  unfold handleLoginResponse
  rw [if_neg (by simp [status]), read]
  dsimp only
  rw [if_pos ⟨token, user⟩]
  split
  · next store' disk e ran =>
      rw [ran] at added
      dsimp only at added
      subst added
      exact ⟨disk, _, rfl, .inl rfl⟩
  · next store' disk ran =>
      rw [ran] at added
      dsimp only at added
      subst added
      exact ⟨disk, _, rfl, .inr rfl⟩

/-- An accepted login is stored. -/
theorem upstreamReply_of_accepts {world : World} {store : Store} (auth : world.auth = some store)
    (env : Env) {task : UpstreamTask} {result : SendResult} {login : LoginReply}
    (accepts : proxy.AcceptsLogin crates task result login) :
    (proxy.upstreamReply crates world env task result).world.auth =
      some { store with
        sessions := store.sessions.insert login.token (proxy.sessionOf env login) } := by
  obtain ⟨reply, body, rfl, status, read, parsed⟩ := accepts.answer
  obtain ⟨disk, response, handled, -⟩ := @handleLoginResponse_of_accepts crates proxy world store
    env { reply with headers := removeHopByHop reply.headers } task.outPath body login status read
    parsed accepts.token accepts.user
  have stored : (if isLoginPath task.req.path then world.auth else none) = some store := by
    rw [if_pos accepts.path, auth]
  have noSwitch : ¬reply.status = 101 := by simp [status]
  simp only [upstreamReply, SendResult.toReply, if_neg noSwitch, stored, handled]

/-- What a step of a route leaves of a token on another route. -/
theorem isValid_resume_of_touches {world : World} {env : Env} {task : UpstreamTask}
    {result : SendResult} {token : Str} (touches : proxy.TouchesToken crates task result token)
    {route : Str} (other : route ≠ proxy.routeKey) :
    (proxy.resume crates world env (.upstream task) result).world.isValid token route = false := by
  change (removeSession crates _ env task.logout).isValid token route = false
  by_cases gone : task.logout = some token
  · rw [gone]
    exact isValid_removeSession _ env token route
  · rw [isValid_removeSession_of_ne _ env gone]
    obtain ⟨login, accepts, rfl⟩ := touches.resolve_left gone
    cases auth : world.auth with
    | none =>
        have same := (proxy.upstreamReply_change crates world env task result).identity
        rw [auth, Option.map_none, Option.map_eq_none_iff] at same
        rw [World.isValid, same]
        rfl
    | some store =>
        rw [World.isValid, upstreamReply_of_accepts auth env accepts, Option.any_some]
        exact isValid_insert store env login other

theorem isValid_resume_of_not_touches {world : World} {env : Env} {task : UpstreamTask}
    {result : SendResult} {token : Str} (clear : ¬proxy.TouchesToken crates task result token)
    (route : Str) :
    (proxy.resume crates world env (.upstream task) result).world.isValid token route =
      world.isValid token route := by
  change (removeSession crates _ env task.logout).isValid token route = _
  rw [isValid_removeSession_of_ne _ env (fun gone => clear (.inl gone))]
  have change := proxy.upstreamReply_change crates world env task result
  generalize (proxy.upstreamReply crates world env task result).world = changed at change ⊢
  cases change with
  | same idle => rfl
  | learn runs => rfl
  | @login store login auth accepts disk saved =>
      have differ : token ≠ login.token :=
        fun same => clear (.inr ⟨login, accepts, same.symm⟩)
      simp only [World.isValid, auth, Option.any_some, Store.isValid,
        Finmap.lookup_insert_of_ne _ differ]

/-- A request that is answered at once, even by a logout, leaves the tokens of other
routes as they were. -/
theorem isValid_handleChecked (world : World) (env : Env) (req : Request) (conn : ConnInfo)
    (token : Str) {route : Str} (other : route ≠ proxy.routeKey) :
    (proxy.handleChecked crates world env req conn).world.isValid token route =
      world.isValid token route := by
  obtain ⟨logout, same, own⟩ := proxy.handleChecked_world crates world env req conn
  rw [same]
  by_cases gone : logout = some token
  · rw [gone, isValid_removeSession]
    cases auth : world.auth with
    | none => rw [World.isValid, auth, Option.any_none]
    | some store =>
        rw [World.isValid, auth, Option.any_some, eq_comm, ← Bool.not_eq_true]
        exact fun valid => other (Store.isValid_unique valid (own token store gone auth))
  · exact isValid_removeSession_of_ne world env gone route

end RouteProxy

namespace Server

variable (crates : Crates) (server : Server)

/-- The route whose handler starts or goes on. -/
def HandledBy (state : State) (key : Str) : Input → Prop
  | .request req _ _ => hostKey req = key
  | .reply id _ _ => (state.tasks id).map Prod.fst = some key
  | .drop _ => False

/-- A step leaves the tokens of the routes that do not handle it as they were. -/
def LeavesOthers (state : State) (input : Input) : Prop :=
  ∀ other, ¬HandledBy state other input → ∀ token,
    ((server.machine crates).next state input).isValid token other = state.isValid token other

/-- A handler that goes on stores and forgets only tokens that are new, or whose session is
on its own route. -/
def TouchesOwn (state : State) (input : Input) : Prop :=
  ∀ id result env key proxy task token session,
    input = .reply id result env → server.Resumes state id key proxy (.upstream task) →
    proxy.TouchesToken crates task result token → token ≠ [] →
    state.session? token = some session → session.route = key

variable {crates server}

theorem isValid_next_reply {state : State} {id : Nat} {key : Str} {proxy : RouteProxy}
    {task : Task} (resumes : server.Resumes state id key proxy task) (result : SendResult)
    (env : Env) (token route : Str) :
    ((server.machine crates).next state (.reply id result env)).isValid token route =
      (proxy.resume crates (state.world key) env task result).world.isValid token route := by
  simp only [Machine.next, machine, step, resumes.task, resumes.route]
  rfl

/-- An answer that nobody waits for changes nothing. -/
theorem next_reply_of_not_resumes {state : State} {id : Nat} (result : SendResult) (env : Env)
    (idle : ∀ key proxy task, ¬server.Resumes state id key proxy task) :
    (server.machine crates).next state (.reply id result env) = state := by
  cases waiting : state.tasks id with
  | none => simp only [Machine.next, machine, step, waiting]
  | some pair =>
      obtain ⟨key, task⟩ := pair
      cases route : server.routes.lookup key with
      | none => simp only [Machine.next, machine, step, waiting, route]
      | some proxy => exact absurd ⟨waiting, route⟩ (idle key proxy task)

section Keyed

variable (keyed : ∀ key proxy, server.routes.lookup key = some proxy → key = proxy.routeKey)

include keyed

theorem leavesOthers_request (state : State) (req : Request) (conn : ConnInfo) (env : Env) :
    server.LeavesOthers crates state (.request req conn env) := by
  intro other elsewhere token
  cases route : server.routes.lookup (hostKey req) with
  | none => simp only [Machine.next, machine, step, route]
  | some proxy =>
      have differ : other ≠ proxy.routeKey := by
        rw [← keyed _ _ route]
        exact fun same => elsewhere same.symm
      have same := @RouteProxy.isValid_handleChecked crates proxy (state.world (hostKey req)) env
        req conn token other differ
      simp only [Machine.next, machine, step, route]
      split <;> exact same

theorem leavesOthers_reply {state : State} {id : Nat} {result : SendResult} {env : Env} :
    server.LeavesOthers crates state (.reply id result env) ↔
      server.TouchesOwn crates state (.reply id result env) := by
  constructor
  · rintro leaves _ _ _ key proxy task token session ⟨⟩ resumes touches named found
    by_contra elsewhere
    have named' := keyed _ _ resumes.route
    have before : state.isValid token session.route = true := by
      rw [State.session?, Option.bind_eq_some_iff] at found
      obtain ⟨store, auth, found⟩ := found
      rw [State.isValid, auth, Option.any_some, Store.isValid_iff]
      exact ⟨named, session, found, rfl⟩
    have other : ¬HandledBy state session.route (.reply id result env) := by
      simpa [HandledBy, resumes.task] using Ne.symm elsewhere
    have after := leaves session.route other token
    rw [before, isValid_next_reply resumes,
      RouteProxy.isValid_resume_of_touches touches (by rwa [← named'])] at after
    cases after
  · intro own other elsewhere token
    by_cases resumes : ∃ key proxy task, server.Resumes state id key proxy task
    · obtain ⟨key, proxy, task, resumes⟩ := resumes
      have differ : other ≠ key := by
        rintro rfl
        exact elsewhere (by simp [HandledBy, resumes.task])
      rw [isValid_next_reply resumes]
      cases task with
      | resource req =>
          rcases proxy.resume_world crates (state.world key) env (.resource req) result with
            same | ⟨upstream, changed, absurd, -⟩
          · rw [same]
            rfl
          · cases absurd
      | upstream task =>
          by_cases touches : proxy.TouchesToken crates task result token
          · rw [RouteProxy.isValid_resume_of_touches touches (by rwa [← keyed _ _ resumes.route]),
              eq_comm, State.isValid, ← Bool.not_eq_true, Option.any_eq_true]
            rintro ⟨store, auth, valid⟩
            obtain ⟨named, session, found, rfl⟩ := Store.isValid_iff.mp valid
            refine differ (own id result env key proxy task token session rfl resumes touches named
              ?_)
            rw [State.session?, auth, Option.bind_some, found]
          · rw [RouteProxy.isValid_resume_of_not_touches touches]
            rfl
    · rw [next_reply_of_not_resumes result env
        fun key proxy task waiting => resumes ⟨key, proxy, task, waiting⟩]

/-- One step. -/
theorem leavesOthers_iff (state : State) (input : Input) :
    server.LeavesOthers crates state input ↔ server.TouchesOwn crates state input := by
  cases input with
  | request req conn env =>
      refine iff_of_true (leavesOthers_request keyed state req conn env) ?_
      rintro _ _ _ _ _ _ _ _ ⟨⟩
  | reply id result env => exact leavesOthers_reply keyed
  | drop id =>
      refine iff_of_true (fun _ _ _ => rfl) ?_
      rintro _ _ _ _ _ _ _ _ ⟨⟩

end Keyed

/-- The routes of a process leave each other's tokens alone, in every run and for every order
of requests and answers, exactly as long as no route stores or forgets a token whose session
is on another route. -/
theorem routes_undisturbed_iff {crates : Crates} {cfg : Config} {disk disk' : Disk} {env : Env}
    {server : Server} {start : State}
    (booted : boot crates cfg disk env = (disk', .ok (server, start))) (inputs : List Input) :
    (server.machine crates).Along (server.LeavesOthers crates) start inputs ↔
      (server.machine crates).Along (server.TouchesOwn crates) start inputs := by
  obtain ⟨auth, -, rfl, -⟩ := boot_spec booted
  have keyed : ∀ key proxy, (withStats crates cfg auth).routes.lookup key = some proxy →
      key = proxy.routeKey := by
    intro key proxy found
    obtain ⟨route, -, -, named⟩ := lookup_withStats found
    exact named
  refine forall₃_congr fun before input after => ?_
  rw [leavesOthers_iff keyed]

/-- A login of `ken`. -/
theorem routes_undisturbed_iff_login :
    ((Reference.server (Reference.config ["ken"] [])).machine Reference.crates).Along
      ((Reference.server (Reference.config ["ken"] [])).LeavesOthers Reference.crates)
      (Reference.start (Reference.config ["ken"] [])) Reference.login := by
  refine (routes_undisturbed_iff (@Reference.boot_eq (Reference.config ["ken"] []) (by decide) rfl)
    Reference.login).mpr ?_
  rw [Reference.login, Machine.along_cons, Machine.along_cons]
  refine ⟨?_, ?_, Machine.along_nil _ _ _⟩
  · rintro _ _ _ _ _ _ _ _ ⟨⟩
  · intro id result env key proxy task token session _ _ _ _ found
    -- Nobody has a session before the first answer.
    rcases next_session? Reference.crates _ found with
      before | ⟨_, _, _, _, _, _, _, absurd, _⟩
    · cases before
    · cases absurd

/-- Two routes in front of one upstream. -/
def twoRoutes : Config :=
  { Reference.config ["ken"] [] with
    routes := [Reference.route,
      { Reference.route with publicUrl := ⟨"http".toList, "other".toList, [], []⟩ }] }

/-- `ken` logs in through one route and then, with the same token, through the other. -/
def loginTwice : List Input :=
  Reference.login ++
    [.request
      { Reference.request .post "/emby/Users/AuthenticateByName" none [] with
        authority := some "other".toList } Reference.conn Reference.env]

/-- The second login takes the token away from the first route. -/
theorem second_login_disturbs :
    boot Reference.crates twoRoutes (fun _ => none) Reference.env =
      (Reference.disk, .ok (Reference.server twoRoutes, Reference.start twoRoutes)) ∧
    ¬((Reference.server twoRoutes).machine Reference.crates).Along
      ((Reference.server twoRoutes).LeavesOthers Reference.crates) (Reference.start twoRoutes)
      (loginTwice ++
        [.reply 1 (Reference.answer "application/json" Reference.loginBody) Reference.env]) := by
  refine ⟨Reference.boot_eq (by decide) rfl, ?_⟩
  intro leaves
  have other : ¬HandledBy
      (((Reference.server twoRoutes).machine Reference.crates).run (Reference.start twoRoutes)
        loginTwice) "proxemby".toList
      (.reply 1 (Reference.answer "application/json" Reference.loginBody) Reference.env) := by
    change ¬_ = _
    decide +kernel
  have same := leaves loginTwice _ [] rfl "proxemby".toList other "tok".toList
  revert same
  decide +kernel

end Server

end Proxemby
