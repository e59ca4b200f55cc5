import Proxemby.Lib.Machine
import Proxemby.Server.Route

/-!
# The running process

`Server` of `src/server/mod.rs` and its start in `src/main.rs`.  A process is a
machine whose inputs are requests, answers of upstreams and dropped connections, in
any order; what a handler does between two awaits is one step.  A system also stops
and starts the process, and keeps the disk.
-/

namespace Proxemby

open Text

/-- The routes of a server by their lower-cased public hostname. -/
structure Server where
  routes : Finmap fun _ : Str => RouteProxy

/-- The shared state of a process: the store, the files, the registry of each route,
and the handlers that wait for an upstream, each with the key of its route. -/
structure State where
  auth : Option Store
  disk : Disk
  registries : Str → Registry
  tasks : Nat → Option (Str × Task)
  nextTask : Nat

/-- What happens to a process. -/
inductive Input where
  | request (req : Request) (conn : ConnInfo) (env : Env)
  | reply (task : Nat) (result : SendResult) (env : Env)
  | drop (task : Nat)

/-- What a process does: it sends a request for a route, or answers its client. -/
inductive Output where
  | sent (route : Str) (client : Client) (out : OutRequest)
  | answered (response : Response)
  deriving DecidableEq

namespace State

/-- The part of the state that a route sees. -/
def world (state : State) (key : Str) : World where
  auth := state.auth
  disk := state.disk
  registry := state.registries key

/-- Put back what a route has changed. -/
def withWorld (state : State) (key : Str) (world : World) : State :=
  { state with
    auth := world.auth
    disk := world.disk
    registries := Function.update state.registries key world.registry }

/-- The session of a token. -/
def session? (state : State) (token : Str) : Option Session :=
  state.auth.bind fun store => store.sessions.lookup token

end State

namespace Server

variable (crates : Crates)

/-- The key that `Server::handle` looks a request up by. -/
def hostKey (req : Request) : Str := toAsciiLowercase (hostname (requestHost req))

/-- The server of a configuration.  A store is there exactly when users are. -/
def withStats (cfg : Config) (auth : Option Store) : Server where
  routes := cfg.routes.foldl
    (fun routes route =>
      routes.insert (toAsciiLowercase route.publicUrl.hostname)
        (RouteProxy.new crates cfg route auth)) ∅

variable (server : Server)

def notFound : Response := textResponse 404 "404 page not found"

/-- One step of the process. -/
def step (state : State) : Input → State × List Output
  | .request req conn env =>
      match server.routes.lookup (hostKey req) with
      | none => (state, [.answered notFound])
      | some proxy =>
          let outcome := proxy.handleChecked crates (state.world (hostKey req)) env req conn
          let state := state.withWorld (hostKey req) outcome.world
          match outcome.flow with
          | .answer response => (state, [.answered response])
          | .send client out task =>
              ({ state with
                  tasks := Function.update state.tasks state.nextTask (some (hostKey req, task))
                  nextTask := state.nextTask + 1 },
                [.sent (hostKey req) client out])
  | .reply id result env =>
      match state.tasks id with
      | none => (state, [])
      | some (key, task) =>
          match server.routes.lookup key with
          | none => (state, [])
          | some proxy =>
              let finished := proxy.resume crates (state.world key) env task result
              let state := state.withWorld key finished.world
              ({ state with tasks := Function.update state.tasks id none },
                finished.spawned.map (.sent key .default) ++ [.answered finished.response])
  -- The client goes away, and its handler with it.
  | .drop id => ({ state with tasks := Function.update state.tasks id none }, [])

def machine : Machine State Input Output where
  step := server.step crates

/-- The state of a process that has just started. -/
def initial (cfg : Config) (auth : Option Store) (disk : Disk) : State where
  auth
  disk
  registries := fun _ => Registry.new cfg.allowedHosts
  tasks := fun _ => none
  nextTask := 0

end Server

/-- The state file of a configuration; without one, sessions are kept in memory. -/
def Config.statePath (cfg : Config) : Option Str :=
  if cfg.authStateFile = [] then none else some cfg.authStateFile

section System

variable (crates : Crates)

/-- The start of the process: open the store when there are allowed users, and build
the server. -/
def boot (cfg : Config) (disk : Disk) (env : Env) : Disk × Except Str (Server × State) :=
  if cfg.allowedUsers = [] then
    (disk, .ok (Server.withStats crates cfg none, Server.initial cfg none disk))
  else
    match Store.open crates.toStoreCrates cfg.statePath disk env with
    | (disk, .error e) => (disk, .error ("proxemby auth state failed: ".toList ++ e))
    | (disk, .ok store) =>
        (disk, .ok (Server.withStats crates cfg (some store),
          Server.initial cfg (some store) disk))

/-- A machine that runs one process at a time. -/
inductive System where
  | down (disk : Disk)
  | up (cfg : Config) (server : Server) (state : State)

/-- What happens to the system: something happens to the process, or the process is
replaced by a new one, after a shutdown or a crash at any point. -/
inductive Event where
  | process (input : Input)
  | start (cfg : Config) (env : Env)

namespace System

def disk : System → Disk
  | .down disk => disk
  | .up _ _ state => state.disk

def step (system : System) : Event → System × List Output
  | .process input =>
      match system with
      | .down disk => (.down disk, [])
      | .up cfg server state =>
          let (state, outputs) := server.step crates state input
          (.up cfg server state, outputs)
  | .start cfg env =>
      match boot crates cfg system.disk env with
      | (disk, .error _) => (.down disk, [])
      | (_, .ok (server, state)) => (.up cfg server state, [])

def machine : Machine System Event Output where
  step := System.step crates

end System

end System

end Proxemby
