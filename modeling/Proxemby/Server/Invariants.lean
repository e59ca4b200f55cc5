import Proxemby.Server.Steps

/-!
# What holds along runs of the process

Where the sessions and the hosts of a state come from, and what never changes: the
path and the secret of the store.
-/

namespace Proxemby

open Text Utf8

/-- The session of a token. -/
def World.session? (world : World) (token : Str) : Option Session :=
  world.auth.bind fun store => store.sessions.lookup token

/-- What a process never changes about its store. -/
def Store.identity (store : Store) : Option Str × Bytes := (store.path, store.secret)

/-- The secret of the store, if there is a store with a state file, is on the disk. -/
def Store.SavedIn (crates : StoreCrates) (auth : Option Store) (disk : Disk) : Prop :=
  ∀ store ∈ auth, Store.Saved crates store.path store.secret disk

/-- A host of a URL string of a body that the rewriter rewrites.  A body that is not
UTF-8, or that the scanner rejects, has none. -/
def Teaches (body : Bytes) (host : Str) : Prop :=
  ∃ text items item url, decode body = some text ∧ scan text = some items ∧ item ∈ items ∧
    urlParts item.value = some url ∧ url.host = host

namespace RouteProxy

variable (crates : Crates) (proxy : RouteProxy)

/-! ## One handler -/

@[simp] theorem removeSession_registry (world : World) (env : Env) (logout : Option Str) :
    (removeSession crates world env logout).registry = world.registry := by
  unfold removeSession
  split <;> rfl

theorem removeSession_identity (world : World) (env : Env) (logout : Option Str) :
    (removeSession crates world env logout).auth.map Store.identity =
      world.auth.map Store.identity := by
  unfold removeSession
  split
  · next token store auth =>
      simp [auth, Store.remove_fst, Store.identity]
  · rfl

theorem removeSession_saved (documented : crates.Documented) {world : World} {env : Env}
    {logout : Option Str}
    (before : Store.SavedIn crates.toStoreCrates world.auth world.disk) :
    Store.SavedIn crates.toStoreCrates (removeSession crates world env logout).auth
      (removeSession crates world env logout).disk := by
  unfold removeSession
  split
  · next token store auth =>
      intro store' member
      dsimp only at member ⊢
      rw [Option.mem_some_iff] at member
      subst member
      rw [Store.remove_fst]
      exact store.saved_remove documented env token (before store auth)
  · exact before

theorem removeSession_session? {world : World} {env : Env} {logout : Option Str}
    {token : Str} {session : Session}
    (after : (removeSession crates world env logout).session? token = some session) :
    world.session? token = some session := by
  unfold removeSession at after
  split at after
  · next gone store auth =>
      simp only [World.session?, Store.remove_fst, Option.bind_some] at after
      rw [World.session?, auth, Option.bind_some]
      by_cases same : token = gone
      · subst same
        rw [Finmap.lookup_erase] at after
        cases after
      · rwa [Finmap.lookup_erase_ne same] at after
  · exact after

/-- A body adds the hosts it teaches to a registry, and drops none. -/
theorem learned_allows {registry : Registry} {body : Bytes} {host : Str} :
    (registry.Allows host → (proxy.learned crates registry body).Allows host) ∧
      ((proxy.learned crates registry body).Allows host →
        registry.Allows host ∨ Teaches body host) := by
  obtain ⟨⟨registry', out, events⟩, ran⟩ := Option.isSome_iff_exists.mp
    (proxy.rewriter.rewritePlaybackInfo_isSome crates.toJson registry body)
  obtain ⟨reports, hosts⟩ := proxy.rewriter.rewritePlaybackInfo_learns crates.toJson ran
  have same : proxy.learned crates registry body = registry' := by simp [learned, ran]
  rw [same]
  refine ⟨fun before => (hosts host).mpr (.inl before), ?_⟩
  intro after
  rcases (hosts host).mp after with before | ⟨event, member, named⟩
  · exact .inl before
  · obtain ⟨⟨url, parts, -, -, host_eq⟩, text, items, decoded, found, item, among, original⟩ :=
      reports event member
    exact .inr ⟨text, items, item, url, decoded, found, among,
      by rw [← original, parts], by rw [← host_eq, named]⟩

namespace Change

variable {crates proxy} {world changed : World} {env : Env} {task : UpstreamTask}
  {result : SendResult}

theorem identity (change : proxy.Change crates world env task result changed) :
    changed.auth.map Store.identity = world.auth.map Store.identity := by
  cases change with
  | same idle => rfl
  | login auth accepts saved => simp [auth, Store.identity]
  | learn runs => rfl

theorem saved (documented : crates.Documented)
    (change : proxy.Change crates world env task result changed)
    (before : Store.SavedIn crates.toStoreCrates world.auth world.disk) :
    Store.SavedIn crates.toStoreCrates changed.auth changed.disk := by
  cases change with
  | same idle => exact before
  | @login store login auth accepts disk saved =>
      intro store' member
      rw [Option.mem_some_iff] at member
      subst member
      rw [saved]
      exact store.saved_add documented env login.token _ (before store auth)
  | learn runs => exact before

/-- A session comes from an accepted login, or was there. -/
theorem session? (change : proxy.Change crates world env task result changed)
    {token : Str} {session : Session} (after : changed.session? token = some session) :
    world.session? token = some session ∨
      ∃ login, proxy.AcceptsLogin crates task result login ∧ login.token = token ∧
        proxy.sessionOf env login = session := by
  cases change with
  | same idle => exact .inl after
  | @login store login auth accepts disk saved =>
      simp only [World.session?, Option.bind_some] at after
      by_cases same : token = login.token
      · subst same
        rw [Finmap.lookup_insert, Option.some.injEq] at after
        exact .inr ⟨login, accepts, rfl, after⟩
      · rw [Finmap.lookup_insert_of_ne _ same] at after
        left
        rw [World.session?, auth, Option.bind_some, after]
  | learn runs => exact .inl after

/-- A host comes from a rewritten body, or was there. -/
theorem allows (change : proxy.Change crates world env task result changed) {host : Str}
    (after : changed.registry.Allows host) :
    world.registry.Allows host ∨
      ∃ body, proxy.RunsRewriter crates world.auth task result body ∧ Teaches body host := by
  cases change with
  | same idle => exact .inl after
  | login auth accepts saved => exact .inl after
  | @learn body runs =>
      rcases (proxy.learned_allows crates).2 after with before | teaches
      · exact .inl before
      · exact .inr ⟨body, runs, teaches⟩

/-- No answer makes a route forget a host. -/
theorem keeps (change : proxy.Change crates world env task result changed) {host : Str}
    (before : world.registry.Allows host) : changed.registry.Allows host := by
  cases change with
  | same idle => exact before
  | login auth accepts saved => exact before
  | learn runs => exact (proxy.learned_allows crates).1 before

end Change

end RouteProxy

/-! ## One step of the process -/

namespace State

/-- The part of the state that outlives the handlers. -/
def shared (state : State) : Option Store × Disk × (Str → Registry) :=
  (state.auth, state.disk, state.registries)

theorem auth_of_shared {left right : State} (same : left.shared = right.shared) :
    left.auth = right.auth := congrArg (·.1) same

theorem disk_of_shared {left right : State} (same : left.shared = right.shared) :
    left.disk = right.disk := congrArg (·.2.1) same

theorem registries_of_shared {left right : State} (same : left.shared = right.shared) :
    left.registries = right.registries := congrArg (·.2.2) same

@[simp] theorem withWorld_world (state : State) (key : Str) :
    (state.withWorld key (state.world key)) = state := by
  simp [withWorld, world]

end State

namespace Server

variable (crates : Crates) (server : Server)

/-- The process goes on with the handler that waits under `id`. -/
structure Resumes (state : State) (id : Nat) (key : Str) (proxy : RouteProxy) (task : Task) :
    Prop where
  task : state.tasks id = some (key, task)
  route : server.routes.lookup key = some proxy

/-- Something changes what the route of `key` sees: its handler forgets a session, at
most, or goes on. -/
inductive Touches (state : State) (key : Str) (env : Env) : Input → World → Prop where
  | request (req : Request) (conn : ConnInfo) (logout : Option Str) :
      Touches state key env (.request req conn env)
        (RouteProxy.removeSession crates (state.world key) env logout)
  | reply {id : Nat} {result : SendResult} {proxy : RouteProxy} {task : UpstreamTask}
      {changed : World} (resumes : server.Resumes state id key proxy (.upstream task))
      (change : proxy.Change crates (state.world key) env task result changed) :
      Touches state key env (.reply id result env)
        (RouteProxy.removeSession crates changed env task.logout)

/-- One step changes what one route sees, or nothing that routes share. -/
theorem next_shared (state : State) (input : Input) :
    ((server.machine crates).next state input).shared = state.shared ∨
      ∃ key env world, server.Touches crates state key env input world ∧
        ((server.machine crates).next state input).shared =
          (state.withWorld key world).shared := by
  cases input with
  | request req conn env =>
      cases route : server.routes.lookup (hostKey req) with
      | none => exact .inl (by simp [Machine.next, machine, step, route])
      | some proxy =>
          obtain ⟨logout, world, -⟩ :=
            proxy.handleChecked_world crates (state.world (hostKey req)) env req conn
          refine .inr ⟨hostKey req, env, _, .request req conn logout, ?_⟩
          rw [← world]
          simp only [Machine.next, machine, step, route]
          split <;> rfl
  | reply id result env =>
      cases waiting : state.tasks id with
      | none => exact .inl (by simp [Machine.next, machine, step, waiting])
      | some pair =>
          obtain ⟨key, task⟩ := pair
          cases route : server.routes.lookup key with
          | none => exact .inl (by simp [Machine.next, machine, step, waiting, route])
          | some proxy =>
              have resumed : ((server.machine crates).next state (.reply id result env)).shared =
                  (state.withWorld key
                    (proxy.resume crates (state.world key) env task result).world).shared := by
                simp only [Machine.next, machine, step, waiting, route]
                rfl
              rcases proxy.resume_world crates (state.world key) env task result with
                same | ⟨upstream, changed, rfl, change, world⟩
              · left
                rw [resumed, same, State.withWorld_world]
              · right
                exact ⟨key, env, _, .reply ⟨waiting, route⟩ change, by rw [resumed, world]⟩
  | drop id => exact .inl rfl

/-- The input is the answer to a login through the route that the session names, on
which the process stores it. -/
def StoresSession (state : State) (token : Str) (session : Session) (input : Input) : Prop :=
  ∃ id result env key proxy task login,
    input = .reply id result env ∧ server.Resumes state id key proxy (.upstream task) ∧
    proxy.AcceptsLogin crates task result login ∧ login.token = token ∧
    proxy.sessionOf env login = session

/-- The input is the answer to a PlaybackInfo request through the route of `key`, with
a URL on the host that the rewriter rewrites. -/
def LearnsHost (state : State) (key host : Str) (input : Input) : Prop :=
  ∃ id result env proxy task body,
    input = .reply id result env ∧ server.Resumes state id key proxy (.upstream task) ∧
    proxy.RunsRewriter crates state.auth task result body ∧ Teaches body host

theorem next_identity (state : State) (input : Input) :
    ((server.machine crates).next state input).auth.map Store.identity =
      state.auth.map Store.identity := by
  rcases server.next_shared crates state input with same | ⟨key, env, world, touches, same⟩
  · rw [State.auth_of_shared same]
  · rw [State.auth_of_shared same]
    cases touches with
    | request req conn logout => exact RouteProxy.removeSession_identity crates _ env logout
    | @reply id result proxy task changed resumes change =>
        exact (RouteProxy.removeSession_identity crates changed env task.logout).trans
          change.identity

theorem next_saved (documented : crates.Documented) {state : State} {input : Input}
    (before : Store.SavedIn crates.toStoreCrates state.auth state.disk) :
    Store.SavedIn crates.toStoreCrates ((server.machine crates).next state input).auth
      ((server.machine crates).next state input).disk := by
  rcases server.next_shared crates state input with same | ⟨key, env, world, touches, same⟩
  · rwa [State.auth_of_shared same, State.disk_of_shared same]
  · rw [State.auth_of_shared same, State.disk_of_shared same]
    cases touches with
    | request req conn logout =>
        exact @RouteProxy.removeSession_saved crates documented (state.world key) _ _ before
    | reply resumes change =>
        exact RouteProxy.removeSession_saved crates documented
          (@RouteProxy.Change.saved _ _ (state.world key) _ _ _ _ documented change before)

/-- A session comes from a login, or was there. -/
theorem next_session? {state : State} {input : Input} {token : Str} {session : Session}
    (after : ((server.machine crates).next state input).session? token = some session) :
    state.session? token = some session ∨
      server.StoresSession crates state token session input := by
  rcases server.next_shared crates state input with same | ⟨key, env, world, touches, same⟩
  · left
    rwa [State.session?, State.auth_of_shared same] at after
  · rw [State.session?, State.auth_of_shared same] at after
    cases touches with
    | request req conn logout =>
        exact .inl (@RouteProxy.removeSession_session? crates (state.world key) _ _ _ _ after)
    | @reply id result proxy task changed resumes change =>
        have kept := @RouteProxy.removeSession_session? crates changed _ _ _ _ after
        rcases change.session? kept with before | ⟨login, accepts, named, session_eq⟩
        · exact .inl before
        · exact .inr ⟨id, result, env, key, proxy, task, login, rfl, resumes, accepts, named,
            session_eq⟩

/-- What a step does to the registry of one route. -/
theorem next_registry (state : State) (input : Input) (key : Str) :
    ((server.machine crates).next state input).registries key = state.registries key ∨
      ∃ id result env proxy task changed,
        input = .reply id result env ∧ server.Resumes state id key proxy (.upstream task) ∧
        proxy.Change crates (state.world key) env task result changed ∧
        ((server.machine crates).next state input).registries key = changed.registry := by
  rcases server.next_shared crates state input with same | ⟨other, env, world, touches, same⟩
  · exact .inl (congrFun (State.registries_of_shared same) key)
  · have here := congrFun (State.registries_of_shared same) key
    by_cases equal : key = other
    · subst equal
      simp only [State.withWorld, Function.update_self] at here
      cases touches with
      | request req conn logout =>
          left
          rw [here, RouteProxy.removeSession_registry]
          rfl
      | @reply id result proxy task changed resumes change =>
          right
          refine ⟨id, result, env, proxy, task, changed, rfl, resumes, change, ?_⟩
          rw [here, RouteProxy.removeSession_registry]
    · left
      simpa [State.withWorld, Function.update_of_ne equal] using here

/-- A host of a route comes from an answer that the route rewrote, or was there. -/
theorem next_allows {state : State} {input : Input} {key host : Str}
    (after : (((server.machine crates).next state input).registries key).Allows host) :
    (state.registries key).Allows host ∨ server.LearnsHost crates state key host input := by
  rcases server.next_registry crates state input key with
    same | ⟨id, result, env, proxy, task, changed, rfl, resumes, change, same⟩
  · left
    rwa [same] at after
  · rw [same] at after
    rcases change.allows after with before | ⟨body, runs, teaches⟩
    · exact .inl before
    · exact .inr ⟨id, result, env, proxy, task, body, rfl, resumes, runs, teaches⟩

/-- A route forgets no host. -/
theorem next_keeps (state : State) (input : Input) {key host : Str}
    (before : (state.registries key).Allows host) :
    (((server.machine crates).next state input).registries key).Allows host := by
  rcases server.next_registry crates state input key with
    same | ⟨id, result, env, proxy, task, changed, -, resumes, change, same⟩
  · rwa [same]
  · rw [same]
    exact change.keeps before

/-! ## Waiting handlers -/

/-- A handler that waits was waiting before, or is that of the request, under the
next number. -/
theorem next_task {state : State} {input : Input} {id : Nat} {key : Str} {task : Task}
    (waits : ((server.machine crates).next state input).tasks id = some (key, task)) :
    state.tasks id = some (key, task) ∨
      id = state.nextTask ∧ ∃ req conn env proxy client out, input = .request req conn env ∧
        server.routes.lookup (hostKey req) = some proxy ∧
        (proxy.handleChecked crates (state.world (hostKey req)) env req conn).flow =
          .send client out task := by
  have removed : ∀ gone, Function.update state.tasks gone none id = some (key, task) →
      state.tasks id = some (key, task) := by
    intro gone found
    by_cases same : id = gone
    · rw [same, Function.update_self] at found
      cases found
    · rwa [Function.update_of_ne same] at found
  cases input with
  | request req conn env =>
      cases route : server.routes.lookup (hostKey req) with
      | none => exact .inl (by simpa [Machine.next, machine, step, route] using waits)
      | some proxy =>
          simp only [Machine.next, machine, step, route] at waits
          split at waits
          · exact .inl waits
          · next client out task' flow =>
              dsimp only [State.withWorld] at waits
              by_cases same : id = state.nextTask
              · rw [same, Function.update_self, Option.some.injEq, Prod.mk.injEq] at waits
                obtain ⟨-, rfl⟩ := waits
                exact .inr ⟨same, req, conn, env, proxy, client, out, rfl, route, flow⟩
              · rw [Function.update_of_ne same] at waits
                exact .inl waits
  | reply gone result env =>
      left
      simp only [Machine.next, machine, step] at waits
      cases task' : state.tasks gone with
      | none => simpa [task'] using waits
      | some pair =>
          cases route : server.routes.lookup pair.1 with
          | none => simpa [task', route] using waits
          | some proxy =>
              simp only [task', route] at waits
              exact removed gone waits
  | drop gone => exact .inl (removed gone waits)

theorem nextTask_le (state : State) (input : Input) :
    state.nextTask ≤ ((server.machine crates).next state input).nextTask := by
  cases input with
  | request req conn env =>
      simp only [Machine.next, machine, step]
      cases server.routes.lookup (hostKey req) with
      | none => exact Nat.le_refl _
      | some proxy =>
          dsimp only
          split
          · exact Nat.le_refl _
          · exact Nat.le_succ _
  | reply gone result env =>
      simp only [Machine.next, machine, step]
      cases state.tasks gone with
      | none => exact Nat.le_refl _
      | some pair =>
          dsimp only
          cases server.routes.lookup pair.1 <;> exact Nat.le_refl _
  | drop gone => exact Nat.le_refl _

/-! ## Runs of the process -/

theorem run_identity (state : State) (inputs : List Input) :
    ((server.machine crates).run state inputs).auth.map Store.identity =
      state.auth.map Store.identity := by
  refine (server.machine crates).run_invariant
    (fun after => after.auth.map Store.identity = state.auth.map Store.identity)
    ?_ rfl inputs
  intro before input same
  rw [server.next_identity crates, same]

/-- A session at the end of a run was there all along, or was stored on an answer to a
login; in both cases it has been there ever since. -/
theorem run_session? {state : State} {inputs : List Input} {token : Str} {session : Session}
    (after : ((server.machine crates).run state inputs).session? token = some session) :
    (server.machine crates).Throughout (·.session? token = some session) state inputs ∨
      ∃ before input later, inputs = before ++ input :: later ∧
        server.StoresSession crates ((server.machine crates).run state before) token session
          input ∧
        (server.machine crates).Throughout (·.session? token = some session)
          ((server.machine crates).next ((server.machine crates).run state before) input)
          later := by
  rcases (server.machine crates).run_cause
      (fun state => state.session? token = some session) after with
    throughout | ⟨before, input, later, split, absent, since⟩
  · exact .inl throughout
  · rcases server.next_session? crates since.first with present | stores
    · exact absurd present absent
    · exact .inr ⟨before, input, later, split, stores, since⟩

/-- A host at the end of a run was there at its start, or an earlier answer taught it. -/
theorem run_allows {state : State} {inputs : List Input} {key host : Str}
    (after : (((server.machine crates).run state inputs).registries key).Allows host) :
    (state.registries key).Allows host ∨
      ∃ before input later, inputs = before ++ input :: later ∧
        server.LearnsHost crates ((server.machine crates).run state before) key host input := by
  rcases (server.machine crates).run_cause
      (fun state => (state.registries key).Allows host) after with
    throughout | ⟨before, input, later, split, absent, since⟩
  · exact .inl throughout.first
  · rcases server.next_allows crates since.first with present | learns
    · exact absurd present absent
    · exact .inr ⟨before, input, later, split, learns⟩

end Server

/-! ## The start of the process -/

section Start

variable {crates : Crates} {cfg : Config}

/-- Every route of a server belongs to the configuration. -/
theorem Server.lookup_withStats {auth : Option Store} {key : Str} {proxy : RouteProxy}
    (found : (Server.withStats crates cfg auth).routes.lookup key = some proxy) :
    ∃ route ∈ cfg.routes, proxy = RouteProxy.new crates cfg route auth ∧
      key = proxy.routeKey := by
  have fold : ∀ (routes : List Route) (known : Finmap fun _ : Str => RouteProxy),
      (routes.foldl (fun known route =>
        known.insert (toAsciiLowercase route.publicUrl.hostname)
          (RouteProxy.new crates cfg route auth)) known).lookup key = some proxy →
      known.lookup key = some proxy ∨
        ∃ route ∈ routes, proxy = RouteProxy.new crates cfg route auth ∧
          key = proxy.routeKey := by
    intro routes
    induction routes with
    | nil => exact fun known found => .inl found
    | cons route routes ih =>
        intro known found
        rcases ih _ found with earlier | ⟨other, member, same, named⟩
        · by_cases equal : key = toAsciiLowercase route.publicUrl.hostname
          · rw [equal, Finmap.lookup_insert, Option.some.injEq] at earlier
            subst earlier
            exact .inr ⟨route, List.mem_cons_self, rfl, equal⟩
          · rw [Finmap.lookup_insert_of_ne _ equal] at earlier
            exact .inl earlier
        · exact .inr ⟨other, List.mem_cons_of_mem _ member, same, named⟩
  rcases fold cfg.routes ∅ found with none | found
  · simp at none
  · exact found

/-- The keys of a server are up to its configuration. -/
theorem Server.withStats_isSome {auth : Option Store} {key : Str} :
    ((Server.withStats crates cfg auth).routes.lookup key).isSome = true ↔
      ∃ route ∈ cfg.routes, toAsciiLowercase route.publicUrl.hostname = key := by
  have fold : ∀ (routes : List Route) (known : Finmap fun _ : Str => RouteProxy),
      ((routes.foldl (fun known route =>
        known.insert (toAsciiLowercase route.publicUrl.hostname)
          (RouteProxy.new crates cfg route auth)) known).lookup key).isSome = true ↔
      (known.lookup key).isSome = true ∨
        ∃ route ∈ routes, toAsciiLowercase route.publicUrl.hostname = key := by
    intro routes
    induction routes with
    | nil => simp
    | cons route routes ih =>
        intro known
        simp only [List.foldl_cons, ih, List.mem_cons, exists_eq_or_imp, ← or_assoc]
        refine or_congr_left ?_
        by_cases equal : toAsciiLowercase route.publicUrl.hostname = key
        · simp [equal]
        · simp [equal, Finmap.lookup_insert_of_ne _ (Ne.symm equal)]
  simpa [withStats] using fold cfg.routes ∅

/-- A process with allowed users starts with an open store. -/
theorem boot_users {disk disk' : Disk} {env : Env} {server : Server} {state : State}
    (users : cfg.allowedUsers ≠ [])
    (booted : boot crates cfg disk env = (disk', .ok (server, state))) :
    ∃ store, Store.open crates.toStoreCrates cfg.statePath disk env = (disk', .ok store) ∧
      server = Server.withStats crates cfg (some store) ∧
      state = Server.initial cfg (some store) disk' := by
  rw [boot, if_neg users] at booted
  split at booted
  · simp at booted
  · next disk'' store opened =>
      simp only [Prod.mk.injEq, Except.ok.injEq] at booted
      obtain ⟨rfl, rfl, rfl⟩ := booted
      exact ⟨store, opened, rfl, rfl⟩

/-- A process starts with the server of its configuration and the allowed hosts. -/
theorem boot_spec {disk disk' : Disk} {env : Env} {server : Server} {state : State}
    (booted : boot crates cfg disk env = (disk', .ok (server, state))) :
    ∃ auth, (auth.isSome ↔ cfg.allowedUsers ≠ []) ∧
      server = Server.withStats crates cfg auth ∧ state = Server.initial cfg auth disk' := by
  by_cases users : cfg.allowedUsers = []
  · rw [boot, if_pos users] at booted
    simp only [Prod.mk.injEq, Except.ok.injEq] at booted
    obtain ⟨rfl, rfl, rfl⟩ := booted
    exact ⟨none, by simp [users], rfl, rfl⟩
  · obtain ⟨store, -, rfl, rfl⟩ := boot_users users booted
    exact ⟨some store, by simp [users], rfl, rfl⟩

variable (crates) in
/-- Whether a process keeps sessions never changes, and is up to the configuration. -/
theorem Server.run_auth_isSome {disk disk' : Disk} {env : Env} {server : Server}
    {start : State} (booted : boot crates cfg disk env = (disk', .ok (server, start)))
    (inputs : List Input) :
    ((server.machine crates).run start inputs).auth.isSome = true ↔ cfg.allowedUsers ≠ [] := by
  obtain ⟨auth, users, rfl, rfl⟩ := boot_spec booted
  have identity := congrArg Option.isSome
    (run_identity crates (withStats crates cfg auth) (initial cfg auth disk') inputs)
  rw [Option.isSome_map, Option.isSome_map] at identity
  rw [identity]
  exact users

end Start

end Proxemby
