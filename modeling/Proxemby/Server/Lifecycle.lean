import Proxemby.Loading.Values
import Proxemby.Server.Ledger

/-!
# From start to stop

`run` and `flush_stats` of `src/main.rs`, the listeners of `src/server/mod.rs`, `tls.rs` and
`admin.rs`, and `Shutdown` of `src/server/shutdown.rs`.  Tasks run on several threads, so each
step of a task is an input of its own: the trigger may be sent after a listener has looked for
it and before the listener takes a connection.  The shutdown waits until no task holds a clone
of its signal, or until the grace period is over.
-/

namespace Proxemby.Lifecycle

open Traffic (Running Setup)

/-- Whether an input of the traffic brings a request. -/
def isRequest : Traffic.Input → Bool
  | .request .. => true
  | _ => false

/-! ## Listeners -/

inductive Scheme where
  | http
  | https
  | admin
  deriving DecidableEq

/-- The kinds of an error that `is_transient_accept_error` tells apart. -/
inductive ErrorKind where
  | connectionAborted
  | connectionReset
  | interrupted
  | wouldBlock
  | other
  deriving DecidableEq

structure AcceptError where
  kind : ErrorKind
  rawOsError : Option Int
  text : Str
  deriving DecidableEq

def isTransientAcceptError (e : AcceptError) : Bool :=
  (e.kind = .connectionAborted || e.kind = .connectionReset || e.kind = .interrupted ||
    e.kind = .wouldBlock) || e.rawOsError.any fun code => code = 24 || code = 23

/-- What the operating system answers to `listener.accept`. -/
inductive Accepted where
  | pending
  | stream
  | failed (e : AcceptError)
  deriving DecidableEq

/-- What a listener does next in the loop of `accept`: it looks for the trigger, which comes
first in the biased select, it asks for a connection, or it sleeps after a transient error. -/
inductive Turn where
  | trigger
  | listener
  | sleep
  deriving DecidableEq

/-- A task of `serve_http`, `serve_tls` or `serve_admin`. -/
inductive Listener where
  | accepting (scheme : Scheme) (turn : Turn)
  | returned (result : Except Str Unit)

/-- One step of a listener, and the scheme of the connection that it takes. -/
def Listener.poll (triggered : Bool) (answer : Accepted) : Listener → Listener × Option Scheme
  | .accepting scheme .trigger =>
      if triggered then (.returned (.ok ()), none) else (.accepting scheme .listener, none)
  | .accepting scheme .listener =>
      match answer with
      | .pending => (.accepting scheme .trigger, none)
      | .stream => (.accepting scheme .trigger, some scheme)
      | .failed e =>
          if isTransientAcceptError e then (.accepting scheme .sleep, none)
          else (.returned (.error e.text), none)
  | .accepting scheme .sleep => (.accepting scheme .trigger, none)
  | .returned result => (.returned result, none)

/-- A listener returns when it sees the trigger, or for an error that is not transient. -/
theorem Listener.poll_returned {listener : Listener} {triggered : Bool} {answer : Accepted}
    {result : Except Str Unit}
    (returned : (listener.poll triggered answer).1 = .returned result) :
    listener = .returned result ∨ result = .ok () ∧ triggered = true ∨
      ∃ e, answer = .failed e ∧ isTransientAcceptError e = false ∧ result = .error e.text := by
  cases listener with
  | returned before => exact .inl returned
  | accepting scheme turn =>
      right
      cases turn with
      | trigger =>
          left
          rw [poll] at returned
          split at returned
          · next triggered =>
              obtain rfl := Listener.returned.inj returned
              exact ⟨rfl, triggered⟩
          · cases returned
      | sleep => cases returned
      | listener =>
          right
          cases answer with
          | pending | stream => cases returned
          | failed e =>
              simp only [poll] at returned
              split at returned
              · cases returned
              · next fatal =>
                  obtain rfl := Listener.returned.inj returned
                  exact ⟨e, rfl, by simpa using fatal, rfl⟩

/-- A task that serves a connection; with TLS it begins with a handshake. -/
inductive Connection where
  | handshake
  | serving (scheme : Scheme)
  | draining (scheme : Scheme)
  deriving DecidableEq

def Connection.new : Scheme → Connection
  | .https => .handshake
  | scheme => .serving scheme

/-- What a connection hands its requests to. -/
def Connection.service : Connection → Option Scheme
  | .handshake => none
  | .serving scheme => some scheme
  | .draining scheme => some scheme

/-! ## The program -/

/-- `flush_stats` waits for the next tick, or flushes on a thread of its own. -/
inductive Flusher where
  | waiting
  | flushing
  | ended
  deriving DecidableEq

/-- Where `run` is: it waits for a signal or a listener, waits for the tasks to end, flushes, or
has returned.  `finished` says whether the tasks ended in time. -/
inductive Main where
  | serving
  | draining (result : Except Str Unit)
  | flushing (result : Except Str Unit) (finished : Bool)
  | returned (result : Except Str Unit) (finished : Bool) (flushed : Option (Except Str Unit))
  deriving DecidableEq

/-- Whether `run` has returned, and the runtime with all tasks is gone. -/
def Main.hasReturned : Main → Bool
  | .returned .. => true
  | _ => false

/-- Whether the tasks have ended in time. -/
def Main.finished : Main → Bool
  | .flushing _ finished => finished
  | .returned _ finished _ => finished
  | _ => false

/-- What `run` will return. -/
def Main.result? : Main → Option (Except Str Unit)
  | .serving => none
  | .draining result => some result
  | .flushing result _ => some result
  | .returned result _ _ => some result

/-- Whose call holds the lock of the history. -/
inductive Owner where
  | main
  | flusher
  | admin (connection : Nat)
  deriving DecidableEq

def Owner.call (today : Str) : Owner → Stats.Call
  | .main | .flusher => .flush today
  | .admin _ => .report today

structure Program (routes : List Str) where
  running : Running routes
  main : Main
  triggered : Bool
  listeners : Slots Listener
  connections : Slots Connection
  flusher : Flusher
  owner : Option Owner

/-- What happens: a signal comes, `run` sees that a listener has returned or looks whether the
tasks have ended, another task takes a step, a call takes the lock or goes on, or something
happens on a connection or to what connections have left behind. -/
inductive Input where
  | signal
  | joined (listener : Nat)
  | drain (elapsed : Bool)
  | poll (listener : Nat) (answer : Accepted)
  | handshake (connection : Nat)
  | notice (connection : Nat)
  | close (connection : Nat)
  | tick
  | stop
  | lock (owner : Owner) (today : Str)
  | go (env : Env)
  | traffic (connection : Nat) (input : Traffic.Input)

inductive Output where
  | accepted (listener : Nat)
  | warn (message : Str)
  | traffic (output : Traffic.Output)

variable {routes : List Str}

def Listener.clones : Listener → Nat
  | .accepting _ _ => 1
  | .returned _ => 0

theorem Listener.eq_returned {listener : Listener} (none : listener.clones = 0) :
    ∃ result, listener = .returned result := by
  cases listener with
  | accepting scheme turn => cases none
  | returned result => exact ⟨result, rfl⟩

def Flusher.clones : Flusher → Nat
  | .waiting | .flushing => 1
  | .ended => 0

namespace Program

/-- How many clones of the signal there are: that of `Shutdown` until `shutdown` drops it, and
one for each task. -/
def clones (program : Program routes) : Nat :=
  (match program.main with | .serving => 1 | _ => 0) +
    program.listeners.total Listener.clones + program.connections.total (fun _ => 1) +
    program.flusher.clones

/-- The end of the select in `run`, and the start of `shutdown`. -/
def shutdown (program : Program routes) (result : Except Str Unit) : Program routes :=
  { program with main := .draining result, triggered := true }

/-- Whether a call wants the lock. -/
def wants (program : Program routes) : Owner → Bool
  | .main => match program.main with | .flushing _ _ => true | _ => false
  | .flusher => program.flusher = .flushing
  | .admin id => (program.connections.get id).bind Connection.service = some .admin

/-- Requests come on connections; what they have left behind goes on without. -/
def admits (program : Program routes) (connection : Nat) : Traffic.Input → Bool
  | .request .. =>
      match (program.connections.get connection).bind Connection.service with
      | some .http | some .https => true
      | _ => false
  | .call _ | .go _ => false
  | _ => true

/-- What a step is for the traffic. -/
def forTraffic (program : Program routes) (input : Input) : Option Traffic.Input :=
  if program.main.hasReturned then none
  else
    match input with
    | .lock owner today =>
        if program.wants owner && program.running.shared.holder.isNone then
          some (.call (owner.call today))
        else none
    | .go env => some (.go env)
    | .traffic connection input => if program.admits connection input then some input else none
    | _ => none

/-- The task that made a call sees that it has returned. -/
def release (program : Program routes) (answers : List Traffic.Output) :
    Program routes × List Output :=
  let failed (e : Str) : Output := .warn ("proxemby stats flush failed: ".toList ++ e)
  match program.owner, answers with
  | some .main, [.stats (.flushed result)] =>
      match program.main with
      | .flushing outcome finished =>
          ({ program with main := .returned outcome finished (some result), owner := none },
            match result with | .ok () => [] | .error e => [failed e])
      | _ => (program, [])
  | some .flusher, [.stats (.flushed result)] =>
      ({ program with flusher := .waiting, owner := none },
        match result with | .ok () => [] | .error e => [failed e])
  | some (.admin _), [.stats (.reported _)] => ({ program with owner := none }, [])
  | _, _ => (program, [])

/-- A step of a task that has nothing to do with the traffic. -/
def control (statsEnable : Bool) (program : Program routes) :
    Input → Program routes × List Output
  | .signal =>
      match program.main with
      | .serving => (program.shutdown (.ok ()), [])
      | _ => (program, [])
  | .joined id =>
      match program.main, program.listeners.get id with
      | .serving, some (.returned result) => (program.shutdown result, [])
      | _, _ => (program, [])
  | .drain elapsed =>
      let next (result : Except Str Unit) (finished : Bool) : Main :=
        if statsEnable then .flushing result finished else .returned result finished none
      match program.main with
      | .draining result =>
          if program.clones = 0 then ({ program with main := next result true }, [])
          else if elapsed then
            ({ program with main := next result false },
              [.warn "proxemby closed connections still open after the grace period".toList])
          else (program, [])
      | _ => (program, [])
  | .poll id answer =>
      match program.listeners.get id with
      | none => (program, [])
      | some listener =>
          let (listener, stream) := listener.poll program.triggered answer
          let listeners := program.listeners.modify id fun _ => some listener
          match stream with
          | none => ({ program with listeners }, [])
          | some scheme =>
              let connections := program.connections.push (.new scheme)
              ({ program with listeners, connections }, [.accepted id])
  | .handshake id =>
      let connections := program.connections.modify id fun
        | .handshake => some (.serving .https)
        | connection => some connection
      ({ program with connections }, [])
  | .notice id =>
      let connections := program.connections.modify id fun
        | .serving scheme => some (.draining scheme)
        | connection => some connection
      (if program.triggered then { program with connections } else program, [])
  | .close id =>
      -- A connection cannot go away in the middle of a report.
      if program.owner = some (.admin id) then (program, [])
      else ({ program with connections := program.connections.remove id }, [])
  | .tick =>
      (if program.flusher = .waiting then { program with flusher := .flushing } else program, [])
  | .stop =>
      (if program.flusher = .waiting ∧ program.triggered then
        { program with flusher := .ended } else program, [])
  | .lock .. | .go _ | .traffic .. => (program, [])

variable (setup : Setup routes)

def step (program : Program routes) (input : Input) : Program routes × List Output :=
  if program.main.hasReturned then (program, [])
  else
    match program.forTraffic input with
    | none => control setup.statsEnable program input
    | some signal =>
        let (running, outputs) := setup.step program.running signal
        let (program, warnings) :=
          match input with
          | .lock owner _ => ({ program with running, owner := some owner }, [])
          | .go _ => ({ program with running } : Program routes).release outputs
          | _ => ({ program with running }, [])
        (program, outputs.map .traffic ++ warnings)

def machine : Machine (Program routes) Input Output where
  step := step setup

end Program

/-! ## The start -/

/-- The fields of the configuration that the server reads. -/
def serverConfig (cfg : Loading.Config) : Config where
  routes := cfg.routes.map ParsedRoute.toRoute
  allowedHosts := cfg.allowedHosts
  playbackinfoMaxBytes := cfg.playbackinfoMaxBytes
  allowedClients := cfg.allowedClients
  trustProxyHeaders := cfg.trustProxyHeaders
  hideClient := cfg.hideClient
  allowedUsers := cfg.allowedUsers
  authStateFile := cfg.authStateFile

/-- `bind`: an address without a host is that of all interfaces, over IPv6 if possible. -/
def bind (os : Str → Except Str Unit) : Str → Except Str Unit
  | ':' :: port =>
      match os ("[::]:".toList ++ port) with
      | .ok () => .ok ()
      | .error _ => os ("0.0.0.0:".toList ++ port)
  | addr => os addr

def listen (os : Str → Except Str Unit) (addr : Str) : Except Str Unit :=
  match bind os addr with
  | .ok () => .ok ()
  | .error e => .error ("listen ".toList ++ addr ++ ": ".toList ++ e)

/-- The tasks that `run` spawns before it waits. -/
def Program.begin (running : Running routes) (schemes : List Scheme) (statsEnable : Bool) :
    Program routes where
  running
  main := .serving
  triggered := false
  listeners := schemes.foldl (fun slots scheme => slots.push (.accepting scheme .trigger)) .empty
  connections := .empty
  flusher := if statsEnable then .waiting else .ended
  owner := none

/-- What the crates of the program do. -/
structure Libraries where
  crates : Crates
  statsCrates : StatsCrates
  hints : Hints

/-- The schemes of the listeners, in the order in which they are bound. -/
def schemes (cfg : Loading.Config) : List (Scheme × Str) :=
  (.http, cfg.httpAddr) ::
    (if cfg.statsEnable ∧ cfg.statsAddr ≠ [] then [(.admin, cfg.statsAddr)] else []) ++
    if cfg.tlsEnable then [(.https, cfg.tlsAddr)] else []

/-- The part of `run` that comes before it waits: what fails there ends the program.  `disk`
has the state file and `statsDisk` the history. -/
def start (libraries : Libraries) (cfg : Loading.Config) (os : Str → Except Str Unit)
    (disk statsDisk : Disk) (env : Env) :
    Except Str (Setup (routeNames (serverConfig cfg)) ×
      Program (routeNames (serverConfig cfg))) := do
  let (server, state) ← (boot libraries.crates (serverConfig cfg) disk env).2
  let path := if cfg.statsEnable ∧ cfg.statsFile ≠ [] then some cfg.statsFile else none
  let stats ← Stats.open libraries.statsCrates (routeNames (serverConfig cfg)) path statsDisk env
  (schemes cfg).forM fun scheme => listen os scheme.2
  let setup : Setup (routeNames (serverConfig cfg)) :=
    { crates := libraries.crates
      statsCrates := libraries.statsCrates
      hints := libraries.hints
      server
      debug := cfg.logging.level = .debug
      statsEnable := cfg.statsEnable }
  let running := Running.start state (.start stats ⟨fun _ => none, 0⟩ statsDisk)
  return (setup, .begin running ((schemes cfg).map Prod.fst) cfg.statsEnable)

theorem open_fresh {crates : StatsCrates} {path : Option Str} {disk : Disk} {env : Env}
    {stats : Stats routes} (opened : Stats.open crates routes path disk env = .ok stats) :
    ∃ days, stats = .fresh routes path env.now days := by
  unfold Stats.open at opened
  split at opened
  · exact ⟨_, (Except.ok.inj opened).symm⟩
  · split at opened
    · cases opened
    · split at opened
      · exact ⟨_, (Except.ok.inj opened).symm⟩
      · split at opened
        · cases opened
        · exact ⟨_, (Except.ok.inj opened).symm⟩

/-- A program that has started waits, with the history that it found. -/
theorem start_begins {libraries : Libraries} {cfg : Loading.Config} {os : Str → Except Str Unit}
    {disk statsDisk : Disk} {env : Env} {setup : Setup (routeNames (serverConfig cfg))}
    {program : Program (routeNames (serverConfig cfg))}
    (started : start libraries cfg os disk statsDisk env = .ok (setup, program)) :
    setup.hints = libraries.hints ∧ ∃ state path days, program = .begin
      (.start state (.start (.fresh _ path env.now days) ⟨fun _ => none, 0⟩ statsDisk))
      ((schemes cfg).map Prod.fst) cfg.statsEnable := by
  simp only [start, Bind.bind, Except.bind] at started
  split at started
  · cases started
  · next booted =>
      split at started
      · cases started
      · next stats opened =>
          split at started
          · cases started
          · obtain ⟨days, rfl⟩ := open_fresh opened
            obtain ⟨rfl, rfl⟩ := Prod.mk.inj (Except.ok.inj started)
            exact ⟨rfl, _, _, days, rfl⟩

namespace Program

variable (setup : Setup routes)

/-! ## What a step does -/

theorem forTraffic_hasReturned {program : Program routes}
    (returned : program.main.hasReturned = true) (input : Input) :
    program.forTraffic input = none := if_pos returned

theorem forTraffic_eq_some {program : Program routes} {input : Input} {signal : Traffic.Input}
    (serves : program.forTraffic input = some signal) : program.main.hasReturned = false ∧
      ((∃ owner today, input = .lock owner today ∧ signal = .call (owner.call today)) ∨
        (∃ env, input = .go env ∧ signal = .go env) ∨
        ∃ connection, input = .traffic connection signal ∧
          program.admits connection signal = true) := by
  by_cases returned : program.main.hasReturned = true
  · rw [forTraffic_hasReturned returned] at serves
    cases serves
  · refine ⟨by simpa using returned, ?_⟩
    cases input with
    | lock owner today =>
        simp only [forTraffic, returned, if_false, Bool.false_eq_true] at serves
        split at serves
        · exact .inl ⟨owner, today, rfl, (Option.some.inj serves).symm⟩
        · cases serves
    | go env =>
        simp only [forTraffic, returned, if_false, Bool.false_eq_true] at serves
        exact .inr (.inl ⟨env, rfl, (Option.some.inj serves).symm⟩)
    | traffic connection input =>
        simp only [forTraffic, returned, if_false, Bool.false_eq_true] at serves
        split at serves
        · next admitted =>
            obtain rfl := Option.some.inj serves
            exact .inr (.inr ⟨connection, rfl, admitted⟩)
        · cases serves
    | _ => simp [forTraffic, returned] at serves

/-- What a step of a task does that has nothing to do with the traffic. -/
inductive Controls (program : Program routes) : Input → Program routes → List Output → Prop where
  | still {input : Input} : Controls program input program []
  | shutdown {input : Input} (result : Except Str Unit) (serving : program.main = .serving)
      (cause : input = .signal ∧ result = .ok () ∨
        ∃ id, program.listeners.get id = some (.returned result)) :
      Controls program input (program.shutdown result) []
  | drained {input : Input} {next : Main} {outputs : List Output} (result : Except Str Unit)
      (finished : Bool) (draining : program.main = .draining result)
      (ended : finished = true → program.clones = 0)
      (after : next = .flushing result finished ∨ next = .returned result finished none)
      (quiet : ∀ id, .accepted id ∉ outputs) :
      Controls program input { program with main := next } outputs
  | polled {id : Nat} {answer : Accepted} (listener : Listener)
      (there : program.listeners.get id = some listener)
      (idle : (listener.poll program.triggered answer).2 = none) :
      Controls program (.poll id answer)
        { program with
          listeners := program.listeners.modify id fun _ =>
            some (listener.poll program.triggered answer).1 } []
  | accepted {id : Nat} {answer : Accepted} (listener : Listener) (scheme : Scheme)
      (there : program.listeners.get id = some listener)
      (takes : (listener.poll program.triggered answer).2 = some scheme) :
      Controls program (.poll id answer)
        { program with
          listeners := program.listeners.modify id fun _ =>
            some (listener.poll program.triggered answer).1
          connections := program.connections.push (.new scheme) } [.accepted id]
  | connection {input : Input} (id : Nat) (change : Connection → Option Connection) :
      Controls program input
        { program with connections := program.connections.modify id change } []
  | flusher {input : Input} (next : Flusher) (runs : program.flusher = .waiting) :
      Controls program input { program with flusher := next } []

theorem Controls.running {program next : Program routes} {input : Input}
    {outputs : List Output} (controls : Controls program input next outputs) :
    next.running = program.running := by
  cases controls <;> rfl

theorem controls (statsEnable : Bool) (program : Program routes) (input : Input) :
    Controls program input (program.control statsEnable input).1
      (program.control statsEnable input).2 := by
  cases input with
  | signal =>
      simp only [control]
      split
      · next serving => exact .shutdown (.ok ()) serving (.inl ⟨rfl, rfl⟩)
      · exact .still
  | joined id =>
      simp only [control]
      split
      · next result serving there => exact .shutdown result serving (.inr ⟨id, there⟩)
      · exact .still
  | drain elapsed =>
      simp only [control]
      split
      · next result draining =>
          split
          · next none =>
              refine .drained result true draining (fun _ => none) ?_ (by simp)
              split <;> simp
          · split
            · refine .drained result false draining (by simp) ?_ (by simp)
              split <;> simp
            · exact .still
      · exact .still
  | poll id answer =>
      simp only [control]
      split
      · exact .still
      · next listener there =>
          split
          · next idle => exact .polled listener there idle
          · next scheme takes => exact .accepted listener scheme there takes
  | handshake id => exact .connection id _
  | notice id =>
      simp only [control]
      split
      · exact .connection id _
      · exact .still
  | close id =>
      simp only [control]
      split
      · exact .still
      · exact .connection id _
  | tick =>
      simp only [control]
      split
      · next waiting => exact .flusher .flushing waiting
      · exact .still
  | stop =>
      simp only [control]
      split
      · next waiting => exact .flusher .ended waiting.1
      · exact .still
  | lock owner today => exact .still
  | go env => exact .still
  | traffic connection input => exact .still

/-- What a step that is one for the traffic does to the call that holds the lock. -/
inductive Calls (program : Program routes) (answers : List Traffic.Output) :
    Input → Main → Option Owner → Prop where
  | locked (owner : Owner) (today : Str)
      (wants : program.wants owner = true) (free : program.running.shared.holder = none) :
      Calls program answers (.lock owner today) program.main (some owner)
  | flushed (env : Env) (outcome : Except Str Unit) (finished : Bool) (result : Except Str Unit)
      (owner : program.owner = some .main) (flushing : program.main = .flushing outcome finished)
      (answer : answers = [.stats (.flushed result)]) :
      Calls program answers (.go env) (.returned outcome finished (some result)) none
  | released (env : Env) (owner : program.owner ≠ some .main) :
      Calls program answers (.go env) program.main none
  | went (env : Env)
      (waits : program.owner = some .main → ∀ outcome finished,
        program.main = .flushing outcome finished →
        ∀ result, answers ≠ [.stats (.flushed result)]) :
      Calls program answers (.go env) program.main program.owner
  | other (connection : Nat) (input : Traffic.Input) :
      Calls program answers (.traffic connection input) program.main program.owner

/-- What a step of the program does. -/
inductive Moves (program : Program routes) (input : Input) (next : Program routes)
    (outputs : List Output) : Prop where
  | ended (returned : program.main.hasReturned = true) (same : next = program)
      (silent : outputs = [])
  | control (serves : program.forTraffic input = none)
      (controls : Controls program input next outputs)
  | traffic (signal : Traffic.Input) (serves : program.forTraffic input = some signal)
      (running : next.running = setup.machine.next program.running signal)
      (listeners : next.listeners = program.listeners)
      (connections : next.connections = program.connections)
      (triggered : next.triggered = program.triggered)
      (flusher : next.flusher = program.flusher ∨
        program.owner = some .flusher ∧ next.owner = none)
      (calls : Calls program (setup.machine.outputs program.running signal) input next.main
        next.owner)
      (quiet : ∀ id, .accepted id ∉ outputs)

/-- A call of `run` that returns is the end of `run`. -/
theorem Calls.main {program : Program routes} {answers : List Traffic.Output} {input : Input}
    {main : Main} {owner : Option Owner} (calls : Calls program answers input main owner) :
    main = program.main ∨ ∃ result finished flushed, program.main = .flushing result finished ∧
      main = .returned result finished flushed := by
  cases calls with
  | flushed env outcome finished result owner flushing answer =>
      exact .inr ⟨outcome, finished, some result, flushing, rfl⟩
  | _ => exact .inl rfl

/-- A call is made by one that wants it. -/
theorem Calls.owner {program : Program routes} {answers : List Traffic.Output} {input : Input}
    {main : Main} {owner : Option Owner} (calls : Calls program answers input main owner)
    {who : Owner} (owns : owner = some who) :
    main = program.main ∧ (program.owner = some who ∨ program.wants who = true) := by
  cases calls with
  | locked who today wants =>
      obtain rfl := Option.some.inj owns
      exact ⟨rfl, .inr wants⟩
  | flushed | released => cases owns
  | went | other => exact ⟨rfl, .inl owns⟩

theorem release_calls (program : Program routes) (env : Env) (running : Running routes)
    (answers : List Traffic.Output) :
    let next := ({ program with running } : Program routes).release answers
    next.1.running = running ∧ next.1.listeners = program.listeners ∧
      next.1.connections = program.connections ∧ next.1.triggered = program.triggered ∧
      (next.1.flusher = program.flusher ∨ program.owner = some .flusher ∧ next.1.owner = none) ∧
      Calls program answers (.go env) next.1.main next.1.owner ∧
      ∀ id, .accepted id ∉ next.2 := by
  simp only [release]
  split
  · next result owner =>
      split
      · next outcome finished flushing =>
          refine ⟨rfl, rfl, rfl, rfl, .inl rfl,
            .flushed env outcome finished result owner flushing rfl, ?_⟩
          cases result <;> simp
      · next other =>
          refine ⟨rfl, rfl, rfl, rfl, .inl rfl, .went env ?_, by simp⟩
          intro _ outcome finished flushing
          exact absurd flushing (other outcome finished)
  · next result owner =>
      refine ⟨rfl, rfl, rfl, rfl, .inr ⟨owner, rfl⟩, .released env ?_, ?_⟩
      · simp [owner]
      · cases result <;> simp
  · next id report owner =>
      refine ⟨rfl, rfl, rfl, rfl, .inl rfl, .released env ?_, by simp⟩
      simp [owner]
  · next other _ _ =>
      refine ⟨rfl, rfl, rfl, rfl, .inl rfl, .went env ?_, by simp⟩
      intro owner _ _ _ result same
      exact other result owner same

theorem moves (program : Program routes) (input : Input) :
    Moves setup program input ((machine setup).next program input)
      ((machine setup).outputs program input) := by
  simp only [Machine.next, Machine.outputs, machine, step]
  split
  · next returned => exact .ended returned rfl rfl
  · next running =>
      split
      · next serves => exact .control serves (program.controls setup.statsEnable input)
      · next signal serves =>
          cases input with
          | lock owner today =>
              have asks : program.wants owner = true ∧ program.running.shared.holder = none := by
                rw [forTraffic, if_neg running] at serves
                split at serves
                · next both => simpa using both
                · cases serves
              refine .traffic signal serves rfl rfl rfl rfl (.inl rfl)
                (.locked owner today asks.1 asks.2) ?_
              simp
          | go env =>
              obtain ⟨same, listeners, connections, triggered, flusher, calls, quiet⟩ :=
                program.release_calls env (setup.step program.running signal).1
                  (setup.step program.running signal).2
              refine .traffic signal serves same listeners connections triggered flusher calls ?_
              simpa using quiet
          | traffic connection input =>
              refine .traffic signal serves rfl rfl rfl rfl (.inl rfl) (.other connection input) ?_
              simp
          | _ => simp [forTraffic, running] at serves

/-! ## What holds of every program -/

/-- No task is left that could bring a request. -/
structure Quiet (program : Program routes) : Prop where
  listeners : ∀ id listener, program.listeners.get id = some listener → listener.clones = 0
  connections : ∀ id, program.connections.get id = none
  flusher : program.flusher = .ended

/-- Without clones of the signal there are no tasks. -/
theorem quiet_of_clones {program : Program routes} (none : program.clones = 0) :
    program.Quiet := by
  simp only [clones, Nat.add_eq_zero_iff] at none
  obtain ⟨⟨⟨-, listeners⟩, connections⟩, flusher⟩ := none
  refine ⟨fun id listener there => Slots.weight_eq_zero listeners there, ?_, ?_⟩
  · intro id
    cases there : program.connections.get id with
    | none => rfl
    | some connection => exact absurd (Slots.weight_eq_zero connections there) Nat.one_ne_zero
  · cases runs : program.flusher with
    | ended => rfl
    | waiting | flushing => simp [runs, Flusher.clones] at flusher

structure Sound (program : Program routes) : Prop where
  triggered : program.main = .serving ↔ program.triggered = false
  listeners : ∀ id, program.listeners.get id = some (.returned (.ok ())) →
    program.triggered = true
  quiet : program.main.finished = true → program.Quiet
  owner : program.owner = some .main → ∃ result finished, program.main = .flushing result finished
  flusher : program.owner = some .flusher → program.flusher = .flushing

namespace Sound

variable {program : Program routes}

/-- While `run` waits for the tasks, it has been triggered. -/
theorem triggered_of_draining (sound : program.Sound) {result : Except Str Unit}
    (draining : program.main = .draining result) : program.triggered = true := by
  by_contra untriggered
  have serving := sound.triggered.mpr (by simpa using untriggered)
  rw [draining] at serving
  cases serving

/-- A listener that has returned well has seen the trigger. -/
theorem returns (sound : program.Sound) {id : Nat} {listener : Listener} {answer : Accepted}
    (there : program.listeners.get id = some listener) (other : Nat)
    (found : (program.listeners.modify id fun _ =>
      some (listener.poll program.triggered answer).1).get other =
        some (.returned (.ok ()))) : program.triggered = true := by
  rw [Slots.get_modify] at found
  split at found
  · rw [there, Option.bind_some, Option.some.injEq] at found
    rcases Listener.poll_returned found with rfl | ⟨-, triggered⟩ | ⟨e, -, -, error⟩
    · exact sound.listeners id there
    · exact triggered
    · cases error
  · exact sound.listeners other found

theorem shutdown (sound : program.Sound) (serving : program.main = .serving)
    (result : Except Str Unit) : (program.shutdown result).Sound := by
  refine ⟨by simp [Program.shutdown], fun _ _ => rfl,
    by simp [Program.shutdown, Main.finished], ?_, sound.flusher⟩
  intro owner
  obtain ⟨_, _, flushing⟩ := sound.owner owner
  rw [serving] at flushing
  cases flushing

/-- `run` goes on once there are no clones of the signal, or the time is over. -/
theorem drained (sound : program.Sound) {result : Except Str Unit} {finished : Bool}
    (draining : program.main = .draining result) (ended : finished = true → program.clones = 0)
    {next : Main}
    (after : next = .flushing result finished ∨ next = .returned result finished none) :
    ({ program with main := next } : Program routes).Sound := by
  refine ⟨?_, sound.listeners, ?_, ?_, sound.flusher⟩
  · rcases after with rfl | rfl <;> simp [sound.triggered_of_draining draining]
  · intro done
    have none : program.clones = 0 := by
      rcases after with rfl | rfl <;> exact ended done
    have quiet := quiet_of_clones none
    exact ⟨quiet.listeners, quiet.connections, quiet.flusher⟩
  · intro owner
    obtain ⟨_, _, flushing⟩ := sound.owner owner
    rw [draining] at flushing
    cases flushing

/-- A listener that is polled takes no connection. -/
theorem polled (sound : program.Sound) {id : Nat} {listener : Listener} {answer : Accepted}
    (there : program.listeners.get id = some listener) :
    ({ program with
      listeners := program.listeners.modify id fun _ =>
        some (listener.poll program.triggered answer).1 } : Program routes).Sound := by
  refine ⟨sound.triggered, sound.returns there, ?_, sound.owner, sound.flusher⟩
  intro done
  have quiet := sound.quiet done
  refine ⟨?_, quiet.connections, quiet.flusher⟩
  intro other after found
  rw [Slots.get_modify] at found
  split at found
  · rw [there, Option.bind_some, Option.some.injEq] at found
    obtain ⟨result, rfl⟩ := Listener.eq_returned (quiet.listeners _ _ there)
    rw [← found]
    rfl
  · exact quiet.listeners other after found

/-- Once the tasks have ended, there are no connections to change. -/
theorem connection (sound : program.Sound) (id : Nat) (change : Connection → Option Connection) :
    ({ program with connections := program.connections.modify id change } :
      Program routes).Sound := by
  refine ⟨sound.triggered, sound.listeners, ?_, sound.owner, sound.flusher⟩
  intro done
  have quiet := sound.quiet done
  refine ⟨quiet.listeners, ?_, quiet.flusher⟩
  intro other
  rw [Slots.get_modify, quiet.connections, quiet.connections]
  split <;> rfl

theorem controls (sound : program.Sound) {next : Program routes} {input : Input}
    {outputs : List Output} (controls : Controls program input next outputs) : next.Sound := by
  cases controls with
  | still => exact sound
  | shutdown result serving cause => exact sound.shutdown serving result
  | drained result finished draining ended after quiet =>
      exact sound.drained draining ended after
  | polled listener there idle => exact sound.polled there
  | accepted listener scheme there takes =>
      refine ⟨sound.triggered, sound.returns there, ?_, sound.owner, sound.flusher⟩
      intro done
      obtain ⟨result, rfl⟩ := Listener.eq_returned ((sound.quiet done).listeners _ _ there)
      cases takes
  | connection id change => exact sound.connection id change
  | flusher next runs =>
      refine ⟨sound.triggered, sound.listeners, ?_, sound.owner, ?_⟩
      · intro done
        rw [(sound.quiet done).flusher] at runs
        cases runs
      · intro owner
        rw [sound.flusher owner] at runs
        cases runs

end Sound

variable {setup} in
theorem Sound.next {program : Program routes} (sound : program.Sound) (input : Input) :
    ((machine setup).next program input).Sound := by
  cases moves setup program input with
  | ended returned same =>
      rw [same]
      exact sound
  | control serves controls => exact sound.controls controls
  | traffic signal serves running listeners connections triggered flusher calls quiet =>
      have main : ((machine setup).next program input).main = program.main ∨
          ∃ result finished flushed, program.main = .flushing result finished ∧
            ((machine setup).next program input).main = .returned result finished flushed :=
        calls.main
      refine ⟨?_, ?_, ?_, ?_, ?_⟩
      · rw [triggered, ← sound.triggered]
        rcases main with same | ⟨result, finished, flushed, before, after⟩
        · rw [same]
        · simp [before, after]
      · rw [triggered, listeners]
        exact sound.listeners
      · intro done
        have quiet : program.Quiet := by
          refine sound.quiet ?_
          rcases main with same | ⟨result, finished, flushed, before, after⟩
          · rwa [same] at done
          · rw [after] at done
            rw [before]
            exact done
        refine ⟨listeners ▸ quiet.listeners, connections ▸ quiet.connections, ?_⟩
        rcases flusher with same | ⟨owner, -⟩
        · rw [same, quiet.flusher]
        · have ended := quiet.flusher
          rw [sound.flusher owner] at ended
          cases ended
      · intro owns
        obtain ⟨same, before⟩ := calls.owner owns
        rw [same]
        rcases before with owner | asks
        · exact sound.owner owner
        · simp only [wants] at asks
          split at asks
          · next result finished flushing => exact ⟨result, finished, flushing⟩
          · cases asks
      · intro owns
        have same : ((machine setup).next program input).flusher = program.flusher := by
          rcases flusher with same | ⟨-, none⟩
          · exact same
          · rw [none] at owns
            cases owns
        rw [same]
        rcases (calls.owner owns).2 with owner | asks
        · exact sound.flusher owner
        · simpa [wants] using asks

theorem sound_run {program : Program routes} (sound : program.Sound) (inputs : List Input) :
    ((machine setup).run program inputs).Sound :=
  (machine setup).run_invariant Sound (fun _ input sound => sound.next input) sound inputs

/-- The traffic of a program runs like a proxy of its own. -/
theorem running_run (program : Program routes) (inputs : List Input) :
    ((machine setup).run program inputs).running =
      setup.machine.run program.running ((machine setup).partInputs forTraffic program inputs) := by
  refine (machine setup).run_part setup.machine running ?_ program inputs
  intro program input
  cases moves setup program input with
  | ended returned same =>
      rw [same, forTraffic_hasReturned returned]
      rfl
  | control serves controls =>
      rw [serves]
      exact controls.running
  | traffic signal serves running =>
      rw [running, serves]
      rfl

theorem begin_listeners {running : Running routes} {schemes : List Scheme} {statsEnable : Bool}
    {id : Nat} {listener : Listener}
    (there : (begin running schemes statsEnable).listeners.get id = some listener) :
    ∃ scheme, listener = .accepting scheme .trigger := by
  have all (schemes : List Scheme) (slots : Slots Listener)
      (before : ∀ listener, slots.get id = some listener →
        ∃ scheme, listener = .accepting scheme .trigger) :
      ∀ listener, (schemes.foldl (fun slots scheme => slots.push
        (.accepting scheme .trigger)) slots).get id = some listener →
          ∃ scheme, listener = .accepting scheme .trigger := by
    induction schemes generalizing slots with
    | nil => exact before
    | cons scheme schemes ih =>
        refine ih _ ?_
        intro listener found
        rw [Slots.get_push] at found
        split at found
        · exact ⟨scheme, (Option.some.inj found).symm⟩
        · exact before listener found
  exact all schemes .empty (fun _ none => by cases none) listener there

theorem sound_begin (running : Running routes) (schemes : List Scheme) (statsEnable : Bool) :
    (begin running schemes statsEnable).Sound where
  triggered := by simp [begin]
  listeners id there := by
    obtain ⟨scheme, same⟩ := begin_listeners there
    cases same
  quiet finished := by cases finished
  owner none := by cases none
  flusher none := by cases none

end Program

/-! ## Late connections -/

def Output.accepts (id : Nat) : Output → Bool
  | .accepted other => other = id
  | _ => false

namespace Program

variable (setup : Setup routes)

/-- The connections that a listener takes after the trigger has been sent. -/
def late (id : Nat) (program : Program routes) (input : Input) : Nat :=
  if program.triggered then
    ((machine setup).outputs program input).countP (Output.accepts id)
  else 0

/-- How many connections a listener can still take once the trigger has been sent: one if it
has looked before. -/
def credit (id : Nat) (program : Program routes) : Nat :=
  if program.triggered then
    match program.listeners.get id with
    | some (.accepting _ .listener) => 1
    | _ => 0
  else 1

theorem credit_le (id : Nat) (program : Program routes) : program.credit id ≤ 1 := by
  rw [credit]
  split
  · split <;> simp
  · exact le_rfl

theorem countP_accepts {id : Nat} {outputs : List Output} (quiet : .accepted id ∉ outputs) :
    outputs.countP (Output.accepts id) = 0 := by
  rw [List.countP_eq_zero]
  intro output member accepts
  cases output with
  | accepted other =>
      simp only [Output.accepts, decide_eq_true_eq] at accepts
      exact quiet (accepts ▸ member)
  | warn | traffic => cases accepts

theorem credit_congr {id : Nat} {program next : Program routes}
    (listeners : next.listeners.get id = program.listeners.get id)
    (triggered : next.triggered = program.triggered) : next.credit id = program.credit id := by
  rw [credit, credit, listeners, triggered]

/-- A listener that has looked before the trigger takes at most one connection after it. -/
theorem Controls.spends {program next : Program routes} {input : Input} {outputs : List Output}
    (controls : Controls program input next outputs) (triggered : program.triggered = true)
    (id : Nat) :
    outputs.countP (Output.accepts id) + next.credit id ≤ program.credit id := by
  cases controls with
  | still | connection | flusher => exact (Nat.zero_add _).le
  | shutdown result serving cause =>
      have same : (program.shutdown result).credit id = program.credit id :=
        credit_congr rfl triggered.symm
      rw [same]
      exact (Nat.zero_add _).le
  | drained result finished draining ended after quiet =>
      rw [countP_accepts (quiet id)]
      exact (Nat.zero_add _).le
  | @polled other answer listener there idle =>
      rw [List.countP_nil, Nat.zero_add]
      by_cases same : id = other
      · subst same
        simp only [credit, triggered, if_true, Slots.get_modify, there, Option.bind_some]
        rcases listener with ⟨scheme, _ | _ | _⟩ | result
        · simp [Listener.poll]
        · cases answer with
          | pending => simp [Listener.poll]
          | stream => simp [Listener.poll]
          | failed e =>
              simp only [Listener.poll]
              split <;> simp_all
        · simp [Listener.poll]
        · simp [Listener.poll]
      · refine le_of_eq (credit_congr ?_ rfl)
        rw [Slots.get_modify, if_neg same]
  | @accepted other answer listener scheme there takes =>
      by_cases same : id = other
      · subst same
        rcases listener with ⟨scheme, _ | _ | _⟩ | result
        · simp [Listener.poll, triggered] at takes
        · cases answer with
          | pending => simp [Listener.poll] at takes
          | stream => simp [credit, triggered, there, Listener.poll, Output.accepts]
          | failed e =>
              simp only [Listener.poll] at takes
              split at takes <;> cases takes
        · simp [Listener.poll] at takes
        · simp [Listener.poll] at takes
      · have none : [Output.accepted other].countP (Output.accepts id) = 0 := by
          simp [Output.accepts, Ne.symm same]
        rw [none, Nat.zero_add]
        refine le_of_eq (credit_congr ?_ rfl)
        rw [Slots.get_modify, if_neg same]

theorem late_le_credit (id : Nat) (program : Program routes) (input : Input) :
    late setup id program input + ((machine setup).next program input).credit id ≤
      program.credit id := by
  by_cases triggered : program.triggered = true
  · rw [late, if_pos triggered]
    cases moves setup program input with
    | ended returned same silent =>
        rw [same, silent]
        exact (Nat.zero_add _).le
    | control serves controls => exact controls.spends triggered id
    | traffic signal serves running listeners connections same flusher calls quiet =>
        rw [countP_accepts (quiet id), Nat.zero_add]
        exact (credit_congr (by rw [listeners]) same).le
  · have all := ((machine setup).next program input).credit_le id
    simp only [late, triggered, credit, if_false, Bool.false_eq_true] at all ⊢
    omega

/-- After the trigger a listener takes one more connection at most, whatever the order in
which the trigger is sent and listeners look for it. -/
theorem late_connections (program : Program routes) (id : Nat) (inputs : List Input) :
    (machine setup).total (late setup id) program inputs ≤ 1 :=
  ((machine setup).total_le_credit (credit id) (late_le_credit setup id) program inputs).trans
    (program.credit_le id)

/-! ## Why a program stops -/

/-- A listener has failed for good. -/
def Fatal (inputs : List Input) (e : Str) : Prop :=
  ∃ id error, Input.poll id (.failed error) ∈ inputs ∧
    isTransientAcceptError error = false ∧ error.text = e

/-- A program stops for what has happened. -/
structure Told (inputs : List Input) (program : Program routes) : Prop where
  listeners : ∀ id e, program.listeners.get id = some (.returned (.error e)) → Fatal inputs e
  signal : program.main.result? = some (.ok ()) → .signal ∈ inputs
  fatal : ∀ e, program.main.result? = some (.error e) → Fatal inputs e

theorem Fatal.later {inputs : List Input} {e : Str} (fatal : Fatal inputs e) (input : Input) :
    Fatal (inputs ++ [input]) e := by
  obtain ⟨id, error, member, rest⟩ := fatal
  exact ⟨id, error, List.mem_append_left _ member, rest⟩

/-- A step that changes neither the result nor a listener. -/
theorem Told.keep {inputs : List Input} {program next : Program routes}
    (told : Told inputs program) (input : Input)
    (listeners : ∀ id e, next.listeners.get id = some (.returned (.error e)) →
      program.listeners.get id = some (.returned (.error e)) ∨ Fatal (inputs ++ [input]) e)
    (result : next.main.result? = program.main.result?) : Told (inputs ++ [input]) next where
  listeners id e there := by
    rcases listeners id e there with before | fatal
    · exact (told.listeners id e before).later input
    · exact fatal
  signal stops := List.mem_append_left _ (told.signal (result ▸ stops))
  fatal e stops := (told.fatal e (result ▸ stops)).later input

theorem Told.next {inputs : List Input} {program : Program routes} (sound : program.Sound)
    (told : Told inputs program) (input : Input) :
    Told (inputs ++ [input]) ((machine setup).next program input) := by
  have polled {id : Nat} {answer : Accepted} {listener : Listener}
      (there : program.listeners.get id = some listener) (asked : input = .poll id answer)
      (other : Nat) (e : Str)
      (found : (program.listeners.modify id fun _ =>
        some (listener.poll program.triggered answer).1).get other =
          some (.returned (.error e))) :
      program.listeners.get other = some (.returned (.error e)) ∨
        Fatal (inputs ++ [input]) e := by
    rw [Slots.get_modify] at found
    split at found
    · next same =>
        rw [there, Option.bind_some, Option.some.injEq] at found
        rcases Listener.poll_returned found with rfl | ⟨ok, -⟩ | ⟨error, rfl, fatal, text⟩
        · exact .inl (same ▸ there)
        · cases ok
        · refine .inr ⟨id, error, by simp [asked], fatal, ?_⟩
          exact (Except.error.inj text).symm
    · exact .inl found
  cases moves setup program input with
  | ended returned same =>
      rw [same]
      exact told.keep input (fun _ _ there => .inl there) rfl
  | control serves controls =>
      generalize (machine setup).next program input = next at controls ⊢
      generalize (machine setup).outputs program input = outputs at controls
      cases controls with
      | still | connection | flusher =>
          exact told.keep input (fun _ _ there => .inl there) rfl
      | shutdown result serving cause =>
          refine ⟨fun id e there => (told.listeners id e there).later input, ?_, ?_⟩
          · intro stops
            obtain rfl := Option.some.inj stops
            rcases cause with ⟨rfl, -⟩ | ⟨id, there⟩
            · simp
            · have triggered := sound.listeners id there
              rw [sound.triggered.mp serving] at triggered
              cases triggered
          · intro e stops
            obtain rfl := Option.some.inj stops
            rcases cause with ⟨-, ok⟩ | ⟨id, there⟩
            · cases ok
            · exact (told.listeners id e there).later input
      | drained result finished draining ended after quiet =>
          refine told.keep input (fun _ _ there => .inl there) ?_
          rcases after with rfl | rfl <;> simp [draining, Main.result?]
      | polled listener there idle => exact told.keep _ (polled there rfl) rfl
      | accepted listener scheme there takes => exact told.keep _ (polled there rfl) rfl
  | traffic signal serves running listeners connections triggered flusher calls quiet =>
      refine told.keep input (fun _ _ there => .inl (listeners ▸ there)) ?_
      rcases calls.main with same | ⟨result, finished, flushed, before, after⟩
      · rw [same]
      · rw [before, after]
        rfl

theorem told_begin (running : Running routes) (schemes : List Scheme) (statsEnable : Bool) :
    Told [] (begin running schemes statsEnable) where
  listeners id e there := by
    obtain ⟨scheme, same⟩ := begin_listeners there
    cases same
  signal stops := by cases stops
  fatal e stops := by cases stops

theorem told_run {program : Program routes} (sound : program.Sound) (told : Told [] program)
    (inputs : List Input) : Told inputs ((machine setup).run program inputs) := by
  induction inputs using List.reverseRecOn with
  | nil => exact told
  | append_singleton inputs input ih =>
      rw [Machine.run_append]
      exact ih.next setup (sound_run setup sound inputs) input

/-- A program that has started goes on until it is told to stop: it ends well only after a
signal, and with an error only if a listener has failed with this error, which is not one of
those that `accept` tries again after. -/
theorem stops_when_told {libraries : Libraries} {cfg : Loading.Config}
    {os : Str → Except Str Unit} {disk statsDisk : Disk} {env : Env}
    {setup : Setup (routeNames (serverConfig cfg))}
    {program : Program (routeNames (serverConfig cfg))}
    (started : start libraries cfg os disk statsDisk env = .ok (setup, program))
    (inputs : List Input) :
    let main := ((machine setup).run program inputs).main
    (main.result? = some (.ok ()) → .signal ∈ inputs) ∧
      ∀ e, main.result? = some (.error e) → ∃ id error, .poll id (.failed error) ∈ inputs ∧
        isTransientAcceptError error = false ∧ error.text = e := by
  have sound_told : program.Sound ∧ Told [] program := by
    obtain ⟨-, state, path, days, rfl⟩ := start_begins started
    exact ⟨sound_begin _ _ _, told_begin _ _ _⟩
  have told := told_run setup sound_told.1 sound_told.2 inputs
  exact ⟨told.signal, told.fatal⟩

/-! ## The last flush -/

section LastFlush

/-- Since `run` has begun to flush, no request has come, and something holds between then and
now. -/
def Since (holds : Program routes → Program routes → Str → Prop) (start : Program routes)
    (inputs : List Input) : Prop :=
  ∃ before today after, inputs = before ++ .lock .main today :: after ∧
    (∀ signal ∈ (machine setup).partInputs forTraffic ((machine setup).run start before)
      (.lock .main today :: after), isRequest signal = false) ∧
    holds ((machine setup).run start before) ((machine setup).run start inputs) today

/-- The flush will take what was in the counters when it began. -/
def Taking (begun program : Program routes) (today : Str) : Prop :=
  program.running.shared.Takes today begun.running.shared.current

/-- What was in the counters when the flush began is in the history, and in the file. -/
def Taken (begun program : Program routes) (_ : Str) : Prop :=
  (∀ pair field, begun.running.shared.current pair field ≤
    program.running.shared.flushed pair field) ∧
  ∀ name, program.running.shared.stats.path = some name →
    ∃ data, setup.statsCrates.toVec program.running.shared.stats.history.days = .ok data ∧
      program.running.shared.disk name = some data

/-- Without connections no request comes. -/
theorem Quiet.isRequest {program : Program routes} (quiet : program.Quiet) {input : Input}
    {signal : Traffic.Input} (serves : program.forTraffic input = some signal) :
    isRequest signal = false := by
  obtain ⟨-, ⟨owner, today, rfl, rfl⟩ | ⟨env, rfl, rfl⟩ | ⟨connection, rfl, admitted⟩⟩ :=
    forTraffic_eq_some serves
  · rfl
  · rfl
  · cases signal with
    | request thread req conn env upload =>
        simp [admits, quiet.connections connection] at admitted
    | _ => rfl

variable {setup} {start : Program routes}

theorem Since.next {holds holds' : Program routes → Program routes → Str → Prop}
    {inputs : List Input} (since : Since setup holds start inputs) (input : Input)
    (quiet : ((machine setup).run start inputs).Quiet)
    (step : ∀ begun today, holds begun ((machine setup).run start inputs) today →
      holds' begun ((machine setup).next ((machine setup).run start inputs) input) today) :
    Since setup holds' start (inputs ++ [input]) := by
  obtain ⟨before, today, after, rfl, silent, held⟩ := since
  refine ⟨before, today, after ++ [input], by simp, ?_, ?_⟩
  · rw [← List.cons_append, Machine.partInputs_append, ← Machine.run_append]
    intro signal member
    rcases List.mem_append.mp member with earlier | now
    · exact silent signal earlier
    · simp only [Machine.partInputs, List.append_nil, Option.mem_toList] at now
      exact quiet.isRequest now
  · rw [Machine.run_append (machine setup) start _ [input]]
    exact step _ _ held

/-- What happens on connections can only add to the counters. -/
theorem calm_of_admits {program : Program routes} {connection : Nat} {signal : Traffic.Input}
    (admitted : program.admits connection signal = true) {action : Stats.Action routes}
    (acts : Setup.action? program.running signal = some action) :
    ∃ thread route kind update, action = .add thread route kind update := by
  cases signal with
  | work thread =>
      simp only [Setup.action?] at acts
      split at acts
      · next counters update _ _ => exact ⟨_, _, _, _, (Option.some.inj acts).symm⟩
      · cases acts
  | call call | go env => cases admitted
  | _ => cases acts

/-- A step of the traffic that is no step of the flush leaves the lock with it. -/
theorem Taking.other {begun program : Program routes} {today : Str}
    (taking : Taking begun program today) {connection : Nat} {signal : Traffic.Input}
    (admitted : program.admits connection signal = true) {next : Program routes}
    (running : next.running = setup.machine.next program.running signal) :
    Taking begun next today := by
  rw [Taking, running, setup.shared_next]
  cases acts : Setup.action? program.running signal with
  | none => exact taking
  | some action =>
      obtain ⟨thread, route, kind, update, rfl⟩ := calm_of_admits admitted acts
      obtain ⟨progress, holds, -⟩ := id taking
      refine Stats.Shared.Takes.next setup.statsCrates taking ?_
      change program.running.shared.holder ≠ none
      simp [holds]

/-- A step of the flush: it goes on, or it returns and has taken everything. -/
theorem Taking.go {begun program : Program routes} {today : Str}
    (taking : Taking begun program today) (env : Env) {next : Program routes}
    (running : next.running = setup.machine.next program.running (.go env)) :
    Taking begun next today ∧
        (∀ result, setup.machine.outputs program.running (.go env) ≠ [.stats (.flushed result)]) ∨
      ∃ result, setup.machine.outputs program.running (.go env) = [.stats (.flushed result)] ∧
        (result = .ok () → Taken setup begun next today) := by
  have shared : next.running.shared =
      (Stats.Shared.machine setup.statsCrates).next program.running.shared (.go env) := by
    rw [running]
    rfl
  have answers : setup.machine.outputs program.running (.go env) =
      ((Stats.Shared.machine setup.statsCrates).outputs program.running.shared (.go env)).map
        .stats := rfl
  by_cases held : next.running.shared.holder = none
  · right
    obtain ⟨all, result, answer, file⟩ :=
      Stats.Shared.Takes.finish setup.statsCrates taking (shared ▸ held)
    refine ⟨result, by rw [answers, answer]; rfl, ?_⟩
    intro ok
    rw [Taken, shared]
    refine ⟨all, ?_⟩
    intro name path
    rw [Stats.Shared.path_next] at path
    exact file ok name path
  · left
    rw [Taking, shared, answers]
    rw [shared] at held
    refine ⟨Stats.Shared.Takes.next setup.statsCrates taking held, ?_⟩
    intro result same
    rw [Stats.Shared.outputs_go_held setup.statsCrates held] at same
    cases same

/-- Tasks that have nothing to do with the traffic leave the lock and the outcome alone. -/
theorem Controls.outcome {program next : Program routes} {input : Input}
    {outputs : List Output} (controls : Controls program input next outputs) :
    next.owner = program.owner ∧
      ((∃ result finished, program.main = .flushing result finished) → next.main = program.main) ∧
      ∀ result, next.main = .returned result true (some (.ok ())) → next.main = program.main := by
  cases controls with
  | shutdown result serving =>
      refine ⟨rfl, ?_, fun _ stops => by cases stops⟩
      rintro ⟨_, _, flushing⟩
      rw [serving] at flushing
      cases flushing
  | drained result finished draining ended after =>
      refine ⟨rfl, ?_, ?_⟩
      · rintro ⟨_, _, flushing⟩
        rw [draining] at flushing
        cases flushing
      · intro _ stops
        rcases after with rfl | rfl <;> cases stops
  | _ => exact ⟨rfl, fun _ => rfl, fun _ _ => rfl⟩

variable (setup) in
/-- What a flush of `run` is taking, and what it has taken when it returns. -/
structure Flushes (start : Program routes) (inputs : List Input) (program : Program routes) :
    Prop where
  taking : program.owner = some .main → program.main.finished = true →
    Since setup Taking start inputs
  taken : ∀ result, program.main = .returned result true (some (.ok ())) →
    Since setup (Taken setup) start inputs

namespace Flushes

variable {inputs : List Input} {program : Program routes}

/-- A step while the flush of `run` goes on, or after it. -/
theorem keep (here : (machine setup).run start inputs = program) (sound : program.Sound)
    {holds holds' : Program routes → Program routes → Str → Prop}
    (since : Since setup holds start inputs) (done : program.main.finished = true) {input : Input}
    (step : ∀ begun today, holds begun program today →
      holds' begun ((machine setup).next program input) today) :
    Since setup holds' start (inputs ++ [input]) := by
  refine since.next input ?_ ?_
  · rw [here]
    exact sound.quiet done
  · rw [here]
    exact step

/-- After `run` has returned, nothing happens. -/
theorem ended (here : (machine setup).run start inputs = program) (sound : program.Sound)
    (flushes : Flushes setup start inputs program) {input : Input}
    (returned : program.main.hasReturned = true)
    (same : (machine setup).next program input = program) :
    Flushes setup start (inputs ++ [input]) program := by
  constructor
  · intro owner
    obtain ⟨_, _, flushing⟩ := sound.owner owner
    rw [flushing] at returned
    cases returned
  · intro result stopped
    refine keep here sound (flushes.taken result stopped) (by rw [stopped]; rfl)
      fun _ _ taken => ?_
    rwa [same]

theorem control (here : (machine setup).run start inputs = program) (sound : program.Sound)
    (flushes : Flushes setup start inputs program) {input : Input} {outputs : List Output}
    (controls : Controls program input ((machine setup).next program input) outputs) :
    Flushes setup start (inputs ++ [input]) ((machine setup).next program input) := by
  obtain ⟨owner, main, returned⟩ := controls.outcome
  constructor
  · intro owns done
    rw [owner] at owns
    rw [main (sound.owner owns)] at done
    refine keep here sound (flushes.taking owns done) done fun begun today taking => ?_
    rw [Taking, controls.running]
    exact taking
  · intro result stopped
    rw [returned result stopped] at stopped
    refine keep here sound (flushes.taken result stopped) (by rw [stopped]; rfl)
      fun begun today taken => ?_
    rw [Taken, controls.running]
    exact taken

/-- A call takes the lock.  A flush of `run` will take what is in the counters now. -/
theorem locked (here : (machine setup).run start inputs = program) (sound : program.Sound)
    (going : program.main.hasReturned = false) {who : Owner} {today : Str}
    (free : program.running.shared.holder = none)
    (running : ((machine setup).next program (.lock who today)).running =
      setup.machine.next program.running (.call (who.call today)))
    (main : ((machine setup).next program (.lock who today)).main = program.main)
    (owner : ((machine setup).next program (.lock who today)).owner = some who) :
    Flushes setup start (inputs ++ [.lock who today])
      ((machine setup).next program (.lock who today)) := by
  constructor
  · intro owns done
    rw [owner] at owns
    obtain rfl := Option.some.inj owns
    rw [main] at done
    refine ⟨inputs, today, [], rfl, ?_, ?_⟩
    · intro request member
      rw [here, Machine.partInputs, Machine.partInputs, List.append_nil,
        Option.mem_toList] at member
      exact (sound.quiet done).isRequest member
    · rw [Machine.run_append, here]
      change Taking program ((machine setup).next program (.lock .main today)) today
      rw [Taking, running]
      exact Stats.Shared.takes_call setup.statsCrates free today
  · intro result stopped
    rw [main.symm.trans stopped] at going
    cases going

/-- The flush of `run` returns with it. -/
theorem flushed (here : (machine setup).run start inputs = program) (sound : program.Sound)
    (flushes : Flushes setup start inputs program) {env : Env} {outcome : Except Str Unit}
    {finished : Bool} {result : Except Str Unit} (owned : program.owner = some .main)
    (flushing : program.main = .flushing outcome finished)
    (answer : setup.machine.outputs program.running (.go env) = [.stats (.flushed result)])
    (running : ((machine setup).next program (.go env)).running =
      setup.machine.next program.running (.go env))
    (main : ((machine setup).next program (.go env)).main =
      .returned outcome finished (some result))
    (owner : ((machine setup).next program (.go env)).owner = none) :
    Flushes setup start (inputs ++ [.go env]) ((machine setup).next program (.go env)) := by
  constructor
  · intro owns
    rw [owner] at owns
    cases owns
  · intro result' stopped
    obtain ⟨rfl, rfl, same⟩ := Main.returned.inj (main.symm.trans stopped)
    obtain rfl := Option.some.inj same
    have done : program.main.finished = true := by
      rw [flushing]
      rfl
    refine keep here sound (flushes.taking owned done) done fun begun today taking => ?_
    rcases taking.go env running with ⟨-, waits⟩ | ⟨result, answers, taken⟩
    · exact absurd answer (waits _)
    · rw [answer] at answers
      simp only [List.cons.injEq, Traffic.Output.stats.injEq, Stats.Answer.flushed.injEq,
        and_true] at answers
      exact taken answers.symm

/-- A step of the traffic that leaves the lock with its owner. -/
theorem kept (here : (machine setup).run start inputs = program) (sound : program.Sound)
    (flushes : Flushes setup start inputs program)
    (going : program.main.hasReturned = false) {input : Input}
    (main : ((machine setup).next program input).main = program.main)
    (owner : ((machine setup).next program input).owner = program.owner)
    (step : program.owner = some .main → ∀ begun today, Taking begun program today →
      Taking begun ((machine setup).next program input) today) :
    Flushes setup start (inputs ++ [input]) ((machine setup).next program input) := by
  constructor
  · intro owns done
    rw [owner] at owns
    rw [main] at done
    exact keep here sound (flushes.taking owns done) done (step owns)
  · intro result stopped
    rw [main.symm.trans stopped] at going
    cases going

theorem next (here : (machine setup).run start inputs = program) (sound : program.Sound)
    (flushes : Flushes setup start inputs program) (input : Input) :
    Flushes setup start (inputs ++ [input]) ((machine setup).next program input) := by
  cases moves setup program input with
  | ended returned same =>
      have still := flushes.ended here sound returned same
      rwa [same]
  | control serves controls => exact flushes.control here sound controls
  | traffic signal serves running listeners connections triggered flusher calls quiet =>
      obtain ⟨going, kinds⟩ := forTraffic_eq_some serves
      generalize main : ((machine setup).next program input).main = after at calls
      generalize owner : ((machine setup).next program input).owner = owner' at calls
      cases calls with
      | locked who today wants free =>
          obtain ⟨_, _, ⟨⟩, rfl⟩ | ⟨_, ⟨⟩, _⟩ | ⟨_, ⟨⟩, _⟩ := kinds
          exact locked here sound going free running main owner
      | flushed env outcome finished result owned flushing answer =>
          obtain ⟨_, _, ⟨⟩, _⟩ | ⟨_, ⟨⟩, rfl⟩ | ⟨_, ⟨⟩, _⟩ := kinds
          exact flushes.flushed here sound owned flushing answer running main owner
      | released env owned =>
          constructor
          · intro owns
            rw [owner] at owns
            cases owns
          · intro result stopped
            rw [main.symm.trans stopped] at going
            cases going
      | went env waits =>
          obtain ⟨_, _, ⟨⟩, _⟩ | ⟨_, ⟨⟩, rfl⟩ | ⟨_, ⟨⟩, _⟩ := kinds
          refine flushes.kept here sound going main owner fun owns begun today taking => ?_
          rcases taking.go env running with ⟨later, -⟩ | ⟨result, answers, -⟩
          · exact later
          · obtain ⟨outcome, finished, flushing⟩ := sound.owner owns
            exact absurd answers (waits owns outcome finished flushing result)
      | other connection input =>
          obtain ⟨_, _, ⟨⟩, _⟩ | ⟨_, ⟨⟩, _⟩ | ⟨_, ⟨⟩, admitted⟩ := kinds
          exact flushes.kept here sound going main owner fun _ begun today taking =>
            taking.other admitted running

end Flushes

theorem flushes_run (sound : start.Sound) (serving : start.main = .serving)
    (inputs : List Input) : Flushes setup start inputs ((machine setup).run start inputs) := by
  induction inputs using List.reverseRecOn with
  | nil =>
      constructor
      · intro _ done
        rw [Machine.run_nil, serving] at done
        cases done
      · intro result stopped
        rw [Machine.run_nil, serving] at stopped
        cases stopped
  | append_singleton inputs input ih =>
      rw [Machine.run_append]
      exact ih.next rfl (sound_run setup sound inputs) input

end LastFlush

/-- A configuration with a stats file. -/
def exampleConfig : Loading.Config where
  routes := [{ Reference.route with acmeDomain := [] }]
  httpAddr := ":8080".toList
  tlsEnable := false
  tlsAddr := ":8443".toList
  acmeDomains := []
  acmeEmail := []
  acmeCacheDir := "acme".toList
  allowedHosts := []
  playbackinfoMaxBytes := 8388608
  responseHeaderTimeout := none
  allowedClients := []
  trustProxyHeaders := false
  hideClient := false
  allowedUsers := []
  authStateFile := []
  statsEnable := true
  statsAddr := []
  statsFile := "stats.json".toList
  logging := ⟨.debug, .text, false⟩

def exampleSetup : Setup (routeNames (serverConfig exampleConfig)) where
  crates := Reference.crates
  statsCrates := Reference.statsCrates
  hints := ProxyBody.exactHints
  server := Server.withStats Reference.crates (serverConfig exampleConfig) none
  debug := true
  statsEnable := true

def exampleProgram : Program (routeNames (serverConfig exampleConfig)) :=
  .begin (.start (Server.initial (serverConfig exampleConfig) none fun _ => none)
    (.start (.fresh _ (some "stats.json".toList) Reference.env.now ∅) ⟨fun _ => none, 0⟩
      fun _ => none)) [.http] true

theorem example_started : start ⟨Reference.crates, Reference.statsCrates, ProxyBody.exactHints⟩
    exampleConfig (fun _ => .ok ()) (fun _ => none) (fun _ => none) Reference.env =
      .ok (exampleSetup, exampleProgram) := rfl

/-- The listener fails for good. -/
theorem stops_when_told_failed :
    let inputs : List Input := [.poll 0 .pending, .poll 0 (.failed ⟨.interrupted, none, []⟩),
      .poll 0 .pending, .poll 0 .pending, .poll 0 (.failed ⟨.other, some 22, "bad".toList⟩),
      .joined 0]
    ∃ id error, .poll id (.failed error) ∈ inputs ∧ isTransientAcceptError error = false ∧
      error.text = "bad".toList := by
  intro inputs
  exact (stops_when_told example_started inputs).2 "bad".toList rfl

/-- A download on one connection, then a signal, and `run` waits for the connection. -/
def exampleStop : List Input :=
  [.poll 0 .pending, .poll 0 .stream,
    .traffic 0 (.request 0 (Reference.request .get "/emby/Videos/1/stream.mkv" none [])
      Reference.conn Reference.env []),
    .traffic 0 (.work 0),
    .traffic 0 (.reply 0 0 (.reply ⟨200, .empty, [.data [1, 2, 3]]⟩) Reference.env),
    .traffic 0 (.work 0), .signal, .poll 0 .pending, .poll 0 .pending, .drain false,
    .traffic 0 (.poll 0 1 true), .traffic 0 (.work 0), .traffic 0 (.drop 0 1),
    .traffic 0 (.work 0), .notice 0, .close 0, .stop, .drain false,
    .lock .main "2026-01-02".toList] ++
  List.replicate 148 (.go Reference.env)

end Program

end Proxemby.Lifecycle
