import Proxemby.Server.Resource

/-!
# Restarts

A restart keeps the disk and nothing else.  The secret that signs resource URLs is on
the disk whenever a process runs; the hosts that routes have learned are not.
-/

namespace Proxemby

namespace Server

variable (crates : Crates)

/-- A process of a configuration that runs with a secret: it is the secret of the store
and of the file on the disk, and every route allows the configured hosts. -/
structure RunsWith (cfg : Config) (secret : Bytes) (server : Server) (state : State) : Prop where
  routes : ∃ auth, server = withStats crates cfg auth
  store : ∃ store, state.auth = some store ∧ store.path = cfg.statePath ∧ store.secret = secret
  disk : Store.SavedIn crates.toStoreCrates state.auth state.disk
  hosts : ∀ key host, host ∈ cfg.allowedHosts → host ≠ [] → (state.registries key).Allows host

variable {crates} {cfg : Config} {secret : Bytes} {server : Server}

theorem RunsWith.next (documented : crates.Documented) {state : State}
    (runs : RunsWith crates cfg secret server state) (input : Input) :
    RunsWith crates cfg secret server ((server.machine crates).next state input) := by
  obtain ⟨store, auth, path, same⟩ := runs.store
  have identity := server.next_identity crates state input
  rw [auth, Option.map_some] at identity
  obtain ⟨store', auth', same'⟩ := Option.map_eq_some_iff.mp identity
  simp only [Store.identity, Prod.mk.injEq] at same'
  refine ⟨runs.routes, ⟨store', auth', ?_, ?_⟩, server.next_saved crates documented runs.disk, ?_⟩
  · rw [same'.1, path]
  · rw [same'.2, same]
  · intro key host configured named
    exact server.next_keeps crates state input (runs.hosts key host configured named)

/-- What a process has on its disk. -/
theorem RunsWith.saved {state : State} (runs : RunsWith crates cfg secret server state) :
    Store.Saved crates.toStoreCrates cfg.statePath secret state.disk := by
  obtain ⟨store, auth, path, same⟩ := runs.store
  rw [← path, ← same]
  exact runs.disk store auth

/-- A process with allowed users starts with a secret. -/
theorem runsWith_boot (documented : crates.Documented) (users : cfg.allowedUsers ≠ [])
    {disk disk' : Disk} {env : Env} {state : State}
    (booted : boot crates cfg disk env = (disk', .ok (server, state))) :
    ∃ store : Store, Store.open crates.toStoreCrates cfg.statePath disk env = (disk', .ok store) ∧
      store.secret ≠ [] ∧ RunsWith crates cfg store.secret server state := by
  obtain ⟨store, opened, rfl, rfl⟩ := boot_users users booted
  obtain ⟨named, saved⟩ := Store.open_saved documented opened
  obtain ⟨-, -, -, path, -, -⟩ := Store.open_spec opened
  refine ⟨store, opened, named, ⟨_, rfl⟩, ⟨store, rfl, path, rfl⟩, ?_, ?_⟩
  · intro store' member
    rw [initial, Option.mem_some_iff] at member
    subst member
    rwa [path]
  · intro key host configured present
    exact (Registry.allows_new cfg.allowedHosts host).mpr ⟨configured, present⟩

end Server

namespace System

variable (crates : Crates)

/-- A system that stays with a configuration and a secret: its process runs with them,
or the secret waits on the disk. -/
def Stays (cfg : Config) (secret : Bytes) : System → Prop
  | .down disk => Store.Saved crates.toStoreCrates cfg.statePath secret disk
  | .up cfg' server state => cfg' = cfg ∧ Server.RunsWith crates cfg secret server state

/-- Every start is one of this configuration. -/
def StartsOnly (cfg : Config) (_ : System) (event : Event) : Prop :=
  ∀ cfg' env, event = .start cfg' env → cfg' = cfg

variable {crates} {cfg : Config}

/-- A start finds the secret that is on the disk, if it succeeds. -/
theorem stays_start (documented : crates.Documented) (users : cfg.allowedUsers ≠ [])
    (file : cfg.authStateFile ≠ []) {secret : Bytes} (named : secret ≠ []) {system : System}
    (saved : Store.Saved crates.toStoreCrates cfg.statePath secret system.disk) (env : Env) :
    ((machine crates).next system (.start cfg env)).Stays crates cfg secret := by
  have path : cfg.statePath = some cfg.authStateFile := by rw [Config.statePath, if_neg file]
  cases readable : env.readError with
  | some e =>
      have down : (machine crates).next system (.start cfg env) = .down system.disk := by
        simp [Machine.next, machine, step, boot, users, path, Store.open, Store.load, readable]
      rw [down]
      exact saved
  | none =>
      rw [path] at saved
      obtain ⟨sessions, opened⟩ := Store.open_of_saved saved named readable
      have booted : boot crates cfg system.disk env = (system.disk, .ok
          (Server.withStats crates cfg (some ⟨some cfg.authStateFile, secret, sessions⟩),
            Server.initial cfg (some ⟨some cfg.authStateFile, secret, sessions⟩) system.disk)) := by
        rw [boot, if_neg users, path, opened]
      obtain ⟨store, opened', -, runs⟩ := Server.runsWith_boot documented users booted
      rw [path, opened, Prod.mk.injEq, Except.ok.injEq] at opened'
      obtain ⟨-, rfl⟩ := opened'
      have up : (machine crates).next system (.start cfg env) = .up cfg
          (Server.withStats crates cfg (some ⟨some cfg.authStateFile, secret, sessions⟩))
          (Server.initial cfg (some ⟨some cfg.authStateFile, secret, sessions⟩) system.disk) := by
        simp [Machine.next, machine, step, booted]
      rw [up]
      exact ⟨rfl, runs⟩

/-- A system stays with its configuration and its secret as long as nobody starts it with
another configuration. -/
theorem stays_next (documented : crates.Documented) (users : cfg.allowedUsers ≠ [])
    (file : cfg.authStateFile ≠ []) {secret : Bytes} (named : secret ≠ []) (system : System)
    (event : Event) (only : StartsOnly cfg system event) (stays : system.Stays crates cfg secret) :
    ((machine crates).next system event).Stays crates cfg secret := by
  cases event with
  | process input =>
      cases system with
      | down disk => exact stays
      | up cfg' server state => exact ⟨stays.1, stays.2.next documented input⟩
  | start cfg' env =>
      obtain rfl := only cfg' env rfl
      apply stays_start documented users file named
      cases system with
      | down disk => exact stays
      | up cfg'' server state => exact stays.2.saved

/-- A process with allowed users that runs at all runs with some secret. -/
theorem run_stays (documented : crates.Documented) (disk : Disk) (events : List Event)
    {server : Server} {state : State} (users : cfg.allowedUsers ≠ [])
    (reached : (machine crates).run (.down disk) events = .up cfg server state) :
    ∃ secret, secret ≠ [] ∧ Server.RunsWith crates cfg secret server state := by
  have invariant := @Machine.run_invariant _ _ _ (machine crates)
    (fun system => ∀ cfg server state, cfg.allowedUsers ≠ [] →
      system = .up cfg server state →
        ∃ secret, secret ≠ [] ∧ Server.RunsWith crates cfg secret server state)
    ?step (.down disk) (by simp) events
  case step =>
    intro system event before cfg server state users after
    cases event with
    | process input =>
        cases system with
        | down disk => cases after
        | up cfg' server' state' =>
            cases after
            obtain ⟨secret, named, runs⟩ := before _ _ _ users rfl
            exact ⟨secret, named, runs.next documented input⟩
    | start cfg' env =>
        simp only [Machine.next, machine, step] at after
        split at after
        · cases after
        · next booted =>
            cases after
            obtain ⟨store, -, named, runs⟩ := Server.runsWith_boot documented users booted
            exact ⟨store.secret, named, runs⟩
  exact invariant cfg server state users reached

variable (crates)

/-- The process forwards a request to its resource endpoint. -/
def Forwards (req : Request) : System → Prop
  | .down _ => False
  | .up _ server state => ∃ proxy client out task,
      server.routes.lookup (Server.hostKey req) = some proxy ∧
      proxy.proxyResource crates (state.world (Server.hostKey req)) req = .send client out task

variable {crates}

/-- Two processes with one configuration and one secret agree on a signed request, as far
as both allow its host. -/
theorem forwards_of_forwards {secret : Bytes} {server server' : Server} {state state' : State}
    (runs : Server.RunsWith crates cfg secret server state)
    (runs' : Server.RunsWith crates cfg secret server' state') {req : Request}
    {parts : ResourceParts} (cut : resourceParts true req.path = .ok parts)
    (signed : isHttpScheme parts.first = false)
    (allows : (state'.registries (Server.hostKey req)).Allows parts.host)
    (forwards : (System.up cfg server state).Forwards crates req) :
    (System.up cfg server' state').Forwards crates req := by
  obtain ⟨auth, rfl⟩ := runs.routes
  obtain ⟨auth', rfl⟩ := runs'.routes
  obtain ⟨store, known, -, secret_eq⟩ := runs.store
  obtain ⟨store', known', -, secret_eq'⟩ := runs'.store
  obtain ⟨proxy, client, out, task, route, sent⟩ := forwards
  obtain ⟨parts', cut', authorized, -, uri, -⟩ := (proxy.proxyResource_eq_send crates).mp sent
  simp only [State.world, known, Option.isSome_some, cut, Except.ok.injEq] at cut' authorized
  subst cut'
  -- Both servers have the route, and only its key matters.
  obtain ⟨proxy', route'⟩ := Option.isSome_iff_exists.mp
    ((@Server.withStats_isSome crates cfg auth' _).mpr
        (Server.withStats_isSome.mp (Option.isSome_iff_exists.mpr ⟨proxy, route⟩)))
  obtain ⟨-, -, -, named⟩ := Server.lookup_withStats route
  obtain ⟨-, -, -, named'⟩ := Server.lookup_withStats route'
  refine ⟨proxy', _, _, _, route', (proxy'.proxyResource_eq_send crates).mpr
    ⟨parts, ?_, ?_, allows, uri, rfl, rfl, rfl⟩⟩
  · simp only [State.world, known', Option.isSome_some, cut]
  · rw [RouteProxy.resourceAuthorized, signed, ← named] at authorized
    rw [State.world, known', RouteProxy.resourceAuthorized, signed, ← named']
    rwa [Store.verify, secret_eq', ← secret_eq]

/-- A signed request that is forwarded once keeps being forwarded, by this process and by
all that are started with the same configuration and state file, exactly when its host
is configured. -/
theorem signed_survives_iff (documented : crates.Documented) {disk : Disk}
    {events : List Event} {server : Server} {state : State} (users : cfg.allowedUsers ≠ [])
    (file : cfg.authStateFile ≠ [])
    (reached : (machine crates).run (.down disk) events = .up cfg server state)
    {req : Request} {parts : ResourceParts} (cut : resourceParts true req.path = .ok parts)
    (signed : isHttpScheme parts.first = false)
    (forwards : (System.up cfg server state).Forwards crates req) :
    (∀ later, (machine crates).Along (StartsOnly cfg) (.up cfg server state) later →
      ∀ server' state', (machine crates).run (.up cfg server state) later =
          .up cfg server' state' →
        (System.up cfg server' state').Forwards crates req) ↔
      parts.host ∈ cfg.allowedHosts := by
  obtain ⟨secret, named, runs⟩ := run_stays documented disk events users reached
  constructor
  · intro always
    -- Right after a restart the registry has the configured hosts alone.
    have path : cfg.statePath = some cfg.authStateFile := by rw [Config.statePath, if_neg file]
    have saved := runs.saved
    rw [path] at saved
    let env : Env := ⟨[], none, .error [], none⟩
    obtain ⟨sessions, opened⟩ := @Store.open_of_saved _ _ _ _ env saved named rfl
    have restarted := always [.start cfg env]
      ((machine crates).along_cons.mpr
        ⟨fun cfg' env' same => by cases same; rfl, (machine crates).along_nil _ _⟩)
      (Server.withStats crates cfg (some ⟨some cfg.authStateFile, secret, sessions⟩))
      (Server.initial cfg (some ⟨some cfg.authStateFile, secret, sessions⟩) state.disk)
      (by simp [Machine.next, machine, step, boot, users, path, opened, System.disk])
    obtain ⟨proxy, client, out, task, -, sent⟩ := restarted
    obtain ⟨parts', cut', -, allowed, -⟩ := (proxy.proxyResource_eq_send crates).mp sent
    rw [State.world, Server.initial, Option.isSome_some, cut, Except.ok.injEq] at cut'
    subst cut'
    exact ((Registry.allows_new cfg.allowedHosts parts.host).mp allowed).1
  · intro configured later only server' state' after
    have stays := @Machine.run_invariant_along _ _ _ (machine crates) _
      (Stays crates cfg secret) (stays_next documented users file named)
      (.up cfg server state) ⟨rfl, runs⟩ _ only
    rw [after] at stays
    exact forwards_of_forwards runs stays.2 cut signed
      (stays.2.hosts _ _ configured (cut_of_resourceParts cut).host) forwards

/-- A signed URL on a configured host, after a restart. -/
theorem signed_survives_iff_configured :
    (System.up (Reference.config ["ken"] ["cdn.example.com"])
      (Reference.server (Reference.config ["ken"] ["cdn.example.com"]))
      (Reference.start (Reference.config ["ken"] ["cdn.example.com"]))).Forwards
        Reference.crates Reference.signedRequest := by
  have cut : resourceParts true Reference.signedRequest.path = .ok {
      first := "9v9k6nr-3M8Yf8oREu-yhQ".toList
      scheme := "https".toList
      host := "cdn.example.com".toList
      rest := "movie.mkv".toList } := by
    decide +kernel
  refine (signed_survives_iff Reference.documented (by decide) (by decide)
    (Reference.run_start (by decide) rfl) cut (by decide +kernel) ?_).mpr
      List.mem_cons_self [.start (Reference.config ["ken"] ["cdn.example.com"]) Reference.env]
      ((machine Reference.crates).along_cons.mpr
        ⟨fun cfg env same => by cases same; rfl, (machine Reference.crates).along_nil _ _⟩)
      _ _ ?_
  · refine ⟨_, .default, ⟨.get, "https://cdn.example.com/movie.mkv".toList, ⟨[]⟩⟩,
      .resource Reference.signedRequest, rfl, ?_⟩
    decide +kernel
  · exact Reference.run_again (by decide) rfl

/-- A signed URL on a host that only an answer has taught: forwarded before a restart and
refused after it. -/
theorem signed_lost :
    (machine Reference.crates).outputs
        ((machine Reference.crates).run (.down fun _ => none)
          (.start (Reference.config ["ken"] []) Reference.env ::
            (Reference.login ++ Reference.playback).map .process))
        (.process (.request Reference.signedRequest Reference.conn Reference.env)) =
      [.sent "proxemby".toList .default
        ⟨.get, "https://cdn.example.com/movie.mkv".toList, ⟨[]⟩⟩] ∧
    (machine Reference.crates).outputs
        ((machine Reference.crates).run (.down fun _ => none)
          (.start (Reference.config ["ken"] []) Reference.env ::
            (Reference.login ++ Reference.playback).map .process ++
              [.start (Reference.config ["ken"] []) Reference.env]))
        (.process (.request Reference.signedRequest Reference.conn Reference.env)) =
      [.answered (textResponse 403 "proxied resource host is not allowed")] := by
  decide +kernel

end System

end Proxemby
