import Proxemby.Lib.Slots
import Proxemby.Server.Handle
import Proxemby.Stats.Concurrent

/-!
# Traffic of a running proxy

A process with its statistics: threads answer requests, poll and drop the bodies that they
have made, and flush and report the counters.  Every update of a counter is a step of its
own, so any thread may come between two updates of another.  The file of the sessions and
the one of the statistics are apart, and each part has its own disk here.

What traffic there is does not depend on what the process has measured: notes beside the run
keep which request a body belongs to, and how much has been read of it.
-/

namespace Proxemby.Traffic

open Stats (Shared Answer Threads)

/-- The counters of a route and kind. -/
abbrev Pair (routes : List Str) := Fin routes.length × Kind

/-- The process, what the handlers that wait have kept, the bodies and tunnels that are
open, and the effects that threads have not performed yet. -/
structure Running (routes : List Str) where
  state : State
  shared : Shared routes
  waiting : Nat → Option (Served (Pair routes))
  bodies : Slots (ProxyBody (Pair routes) RequestLog)
  tunnels : Slots (Option (Pair routes))
  todo : List (Nat × Effect (Pair routes) RequestLog)

/-- What happens: a request comes with its body, a handler goes on or is dropped, a body is
polled or dropped, a tunnel ends, a thread performs an update, or a call to the statistics
goes on. -/
inductive Input where
  | request (thread : Nat) (req : Request) (conn : ConnInfo) (env : Env) (upload : List Frame)
  | reply (thread task : Nat) (result : SendResult) (env : Env)
  | abandon (task : Nat)
  | poll (thread body : Nat) (arrived : Bool)
  | drop (thread body : Nat)
  | copied (thread tunnel : Nat) (bytes : Option (Nat × Nat))
  | work (thread : Nat)
  | call (call : Stats.Call)
  | go (env : Env)

inductive Output where
  | server (output : Proxemby.Output)
  | polled (body : Nat) (poll : Poll)
  | logged (log : RequestLog) (bytes : Nat)
  | stats (answer : Answer)

/-- What a proxy is made of. -/
structure Setup (routes : List Str) where
  crates : Crates
  statsCrates : StatsCrates
  hints : Hints
  server : Server
  debug : Bool
  statsEnable : Bool

variable {routes : List Str}

namespace Running

/-- A proxy that has just started. -/
def start (state : State) (shared : Shared routes) : Running routes where
  state
  shared
  waiting := fun _ => none
  bodies := .empty
  tunnels := .empty
  todo := []

/-- Effects that a thread has yet to perform. -/
def perform (running : Running routes) (thread : Nat)
    (effects : List (Effect (Pair routes) RequestLog)) : Running routes :=
  { running with todo := running.todo ++ effects.map fun effect => (thread, effect) }

/-- A new body, with its effects. -/
def give (running : Running routes) (thread : Nat)
    (made : ProxyBody (Pair routes) RequestLog × List (Effect (Pair routes) RequestLog)) :
    Running routes :=
  ({ running with bodies := running.bodies.push made.1 }).perform thread made.2

/-- A thread goes on once it has performed its effects. -/
def idle (running : Running routes) (thread : Nat) : Bool :=
  (Agenda.take thread running.todo).isNone

end Running

namespace Setup

variable (setup : Setup routes)

/-- The counters of a route. -/
def kinds (key : Str) : Option (Kind → Pair routes) :=
  if setup.statsEnable then (Stats.route routes key).map fun route kind => (route, kind) else none

/-- What `handle` keeps of a request; there is nothing for an unknown host. -/
def served (req : Request) (conn : ConnInfo) : Served (Pair routes) :=
  match setup.server.routes.lookup (Server.hostKey req) with
  | some proxy => proxy.serve setup.crates setup.debug (setup.kinds (Server.hostKey req)) req conn
  | none => ⟨none, none⟩

/-- The counters of the tunnel that an answer opens. -/
def tunnel? (state : State) (task : Nat) (result : SendResult) : Option (Option (Pair routes)) :=
  match state.tasks task, result with
  | some (key, .upstream upstream), .reply reply =>
      if reply.status = 101 ∧
          (RouteProxy.handleUpgradeResponse reply upstream.requestUpgrade).status = 101 then
        some ((setup.kinds key).map fun kinds => kinds .api)
      else none
  | _, _ => none

/-- The answer among what a handler puts out. -/
def answer? (outputs : List Proxemby.Output) : Option Response :=
  match outputs.getLast? with
  | some (.answered response) => some response
  | _ => none

/-- A step of the process. -/
def handle (running : Running routes) (input : Proxemby.Input) :
    State × List Proxemby.Output :=
  setup.server.step setup.crates running.state input

def step (running : Running routes) : Input → Running routes × List Output
  | .request thread req conn env upload =>
      if running.idle thread then
        let served := setup.served req conn
        let (state, outputs) := setup.handle running (.request req conn env)
        let counted := ({ running with state }).perform thread served.arrive
        match answer? outputs with
        | some response => (counted.give thread (served.respond response), outputs.map .server)
        | none =>
            let waiting := Function.update running.waiting running.state.nextTask (some served)
            (({ counted with waiting }).give thread
              (requestBody setup.hints served.counters upload), outputs.map .server)
      else (running, [])
  | .reply thread task result env =>
      if running.idle thread then
        let (state, outputs) := setup.handle running (.reply task result env)
        match answer? outputs, running.waiting task with
        | some response, some served =>
            let waiting := Function.update running.waiting task none
            let tunnels :=
              match setup.tunnel? running.state task result with
              | some counters => running.tunnels.push counters
              | none => running.tunnels
            (({ running with state, waiting, tunnels }).give thread (served.respond response),
              outputs.map .server)
        | _, _ => ({ running with state }, [])
      else (running, [])
  | .abandon task =>
      let (state, _) := setup.handle running (.drop task)
      ({ running with state, waiting := Function.update running.waiting task none }, [])
  | .poll thread id arrived =>
      if running.idle thread then
        match running.bodies.get id with
        | some body =>
            let (poll, body, effects) := body.pollFrame arrived
            (({ running with bodies := running.bodies.modify id fun _ => some body }).perform thread
              effects, [.polled id poll])
        | none => (running, [])
      else (running, [])
  | .drop thread id =>
      if running.idle thread then
        match running.bodies.get id with
        | some body =>
            (({ running with bodies := running.bodies.remove id }).perform thread body.drop, [])
        | none => (running, [])
      else (running, [])
  | .copied thread id bytes =>
      if running.idle thread then
        match running.tunnels.get id with
        | some counters =>
            let effects :=
              match bytes, counters with
              | some (sent, received), some counters =>
                  [.update counters (.addBytesIn sent), .update counters (.addBytesOut received)]
              | _, _ => []
            (({ running with tunnels := running.tunnels.remove id }).perform thread effects, [])
        | none => (running, [])
      else (running, [])
  | .work thread =>
      match Agenda.take thread running.todo with
      | some (.update counters update, todo) =>
          let shared := running.shared.add thread counters.1 counters.2 update
          ({ running with shared, todo }, [])
      | some (.done log bytes, todo) => ({ running with todo }, [.logged log bytes])
      | none => (running, [])
  | .call call =>
      let (shared, answers) := Shared.step setup.statsCrates running.shared (.call call)
      ({ running with shared }, answers.map .stats)
  | .go env =>
      let (shared, answers) := Shared.step setup.statsCrates running.shared (.go env)
      ({ running with shared }, answers.map .stats)

def machine : Machine (Running routes) Input Output where
  step := setup.step

end Setup

/-! ## What is seen from outside -/

/-- What is known of a body: what it is, the request it belongs to, and how much data has been
read of it. -/
structure Note (routes : List Str) where
  part : Part
  counters : Option (Pair routes)
  log : Option RequestLog
  read : Nat

namespace Note

/-- The body of an answer; its record is to tell the status. -/
def answer (asked : Served (Pair routes)) (response : Response) : Note routes where
  part := response.body.part
  counters := asked.counters
  log := asked.log.map fun log => { log with status := response.status }
  read := 0

def upload (asked : Served (Pair routes)) : Note routes where
  part := .upload
  counters := asked.counters
  log := none
  read := 0

def poll (note : Note routes) (poll : Poll) : Note routes :=
  { note with read := note.read + poll.dataLength }

/-- An answer of some counters that is being streamed. -/
def alive (pair : Pair routes) (note : Note routes) : Int :=
  if note.counters = some pair ∧ note.part = .streamed then 1 else 0

end Note

/-- Notes on a run: the requests that wait for an answer, the bodies and the tunnels. -/
structure Notes (routes : List Str) where
  asked : Nat → Option (Served (Pair routes))
  bodies : Slots (Note routes)
  tunnels : Slots (Option (Pair routes))

def Notes.empty : Notes routes := ⟨fun _ => none, .empty, .empty⟩

/-- A run with notes beside it. -/
structure Noted (routes : List Str) where
  running : Running routes
  notes : Notes routes

def Running.noted (running : Running routes) : Noted routes := ⟨running, .empty⟩

/-- What a step means for the traffic: a request comes, and may be answered at once; a request
is answered later; a body is read, or is dropped; or a tunnel ends. -/
inductive Event (routes : List Str) where
  | arrived (asked : Served (Pair routes)) (answer : Option Response)
  | answered (asked : Served (Pair routes)) (answer : Response)
  | read (note : Note routes) (poll : Poll)
  | dropped (note : Note routes)
  | tunnelled (counters : Pair routes) (sent received : Nat)

/-- The traffic of an answer: the whole of a buffered body, and nothing yet of a streamed
one. -/
def answerTraffic (pair : Pair routes) (field : Field) (asked : Served (Pair routes))
    (answer : Response) : Nat :=
  if asked.counters = some pair ∧ field = .bytesOut then answer.body.fullLength else 0

/-- What an event is for a counter of a route and kind. -/
def Event.traffic (pair : Pair routes) (field : Field) : Event routes → Nat
  | .arrived asked answer =>
      (if asked.counters = some pair ∧ field = .requests then 1 else 0) +
        ((answer.map (answerTraffic pair field asked)).getD 0)
  | .answered asked answer => answerTraffic pair field asked answer
  | .read note poll =>
      if note.counters = some pair ∧ note.part.field? = some field then poll.dataLength else 0
  | .dropped _ => 0
  | .tunnelled counters sent received =>
      if counters = pair then
        match field with
        | .requests => 0
        | .bytesIn => sent
        | .bytesOut => received
      else 0

namespace Setup

variable (setup : Setup routes)

/-- What is to be measured of a request to a host of the server: its counters, with statistics
on, and its record, at the debug level. -/
def asked (req : Request) (conn : ConnInfo) : Served (Pair routes) :=
  match setup.server.routes.lookup (Server.hostKey req) with
  | none => ⟨none, none⟩
  | some proxy =>
      { counters :=
          if setup.statsEnable then
            (Stats.route routes (Server.hostKey req)).map fun route => (route, classify req.path)
          else none
        log := if setup.debug then some (proxy.requestLog setup.crates req conn) else none }

/-- The notes after a step. -/
def note (running : Running routes) (notes : Notes routes) : Input → Notes routes
  | .request thread req conn env _ =>
      if running.idle thread then
        let asked := setup.asked req conn
        match answer? (setup.handle running (.request req conn env)).2 with
        | some response => { notes with bodies := notes.bodies.push (.answer asked response) }
        | none => { notes with
            asked := Function.update notes.asked running.state.nextTask (some asked)
            bodies := notes.bodies.push (.upload asked) }
      else notes
  | .reply thread task result env =>
      if running.idle thread then
        match answer? (setup.handle running (.reply task result env)).2, notes.asked task with
        | some response, some asked =>
            { asked := Function.update notes.asked task none
              bodies := notes.bodies.push (.answer asked response)
              tunnels :=
                match setup.tunnel? running.state task result with
                -- Tunnels count under the kind `api`, whatever their path.
                | some _ => notes.tunnels.push (asked.counters.map fun pair => (pair.1, .api))
                | none => notes.tunnels }
        | _, _ => notes
      else notes
  | .abandon task => { notes with asked := Function.update notes.asked task none }
  | .poll thread id arrived =>
      if running.idle thread then
        match running.bodies.get id with
        | some body => { notes with
            bodies := notes.bodies.modify id fun note =>
              some (note.poll (body.pollFrame arrived).1) }
        | none => notes
      else notes
  | .drop thread id =>
      if running.idle thread then { notes with bodies := notes.bodies.remove id } else notes
  | .copied thread id _ =>
      if running.idle thread then { notes with tunnels := notes.tunnels.remove id } else notes
  | .work _ | .call _ | .go _ => notes

def noted : Machine (Noted routes) Input Output where
  step noted input :=
    let (running, outputs) := setup.step noted.running input
    (⟨running, setup.note noted.running noted.notes input⟩, outputs)

/-- The event of a step. -/
def event (noted : Noted routes) : Input → Option (Event routes)
  | .request thread req conn env _ =>
      if noted.running.idle thread then
        some (.arrived (setup.asked req conn)
          (answer? (setup.handle noted.running (.request req conn env)).2))
      else none
  | .reply thread task result env =>
      if noted.running.idle thread then
        match answer? (setup.handle noted.running (.reply task result env)).2,
            noted.notes.asked task with
        | some answer, some asked => some (.answered asked answer)
        | _, _ => none
      else none
  | .poll thread id arrived =>
      if noted.running.idle thread then
        match noted.running.bodies.get id, noted.notes.bodies.get id with
        | some body, some note => some (.read note (body.pollFrame arrived).1)
        | _, _ => none
      else none
  | .drop thread id =>
      if noted.running.idle thread then (noted.notes.bodies.get id).map .dropped else none
  | .copied thread id bytes =>
      if noted.running.idle thread then
        match noted.notes.tunnels.get id, bytes with
        | some (some counters), some (sent, received) => some (.tunnelled counters sent received)
        | _, _ => none
      else none
  | .abandon _ | .work _ | .call _ | .go _ => none

/-- The notes do not disturb the run. -/
theorem running_next (noted : Noted routes) (input : Input) :
    (setup.noted.next noted input).running = setup.machine.next noted.running input := rfl

theorem running_run (noted : Noted routes) (inputs : List Input) :
    (setup.noted.run noted inputs).running = setup.machine.run noted.running inputs := by
  induction inputs generalizing noted with
  | nil => rfl
  | cons input inputs ih => exact ih (setup.noted.next noted input)

theorem trace_noted (noted : Noted routes) (inputs : List Input) :
    setup.noted.trace noted inputs = setup.machine.trace noted.running inputs := by
  induction inputs generalizing noted with
  | nil => rfl
  | cons input inputs ih => rw [Machine.trace, Machine.trace, ih, running_next]; rfl

/-- `handle` keeps what is to be measured. -/
theorem served_eq_asked (req : Request) (conn : ConnInfo) :
    setup.served req conn = setup.asked req conn := by
  cases found : setup.server.routes.lookup (Server.hostKey req) with
  | none => simp only [served, asked, found]
  | some proxy =>
      simp only [served, asked, found, RouteProxy.serve, kinds]
      cases setup.statsEnable with
      | false => rfl
      | true => simp [Option.map_map, Function.comp_def]

/-! ## The calls to the statistics -/

/-- What a step of the traffic is for the statistics. -/
def action? (running : Running routes) : Input → Option (Stats.Action routes)
  | .work thread =>
      match Agenda.take thread running.todo with
      | some (.update counters update, _) => some (.add thread counters.1 counters.2 update)
      | _ => none
  | .call call => some (.call call)
  | .go env => some (.go env)
  | _ => none

def actions (running : Running routes) (inputs : List Input) : List (Stats.Action routes) :=
  setup.machine.partInputs action? running inputs

/-- A step does to the statistics what it is for them. -/
theorem shared_next (running : Running routes) (input : Input) :
    (setup.machine.next running input).shared =
      (Shared.machine setup.statsCrates).run running.shared (action? running input).toList := by
  have still {next : Running routes} (same : next.shared = running.shared) :
      next.shared = (Shared.machine setup.statsCrates).run running.shared
        (none : Option (Stats.Action routes)).toList := same
  simp only [Machine.next, machine]
  cases input with
  | request thread req conn env upload =>
      refine still ?_
      rw [step]
      split
      · dsimp only
        split <;> rfl
      · rfl
  | reply thread task result env =>
      refine still ?_
      rw [step]
      split
      · dsimp only
        split <;> rfl
      · rfl
  | abandon task => rfl
  | poll thread id arrived | drop thread id | copied thread id bytes =>
      refine still ?_
      rw [step]
      split
      · split <;> rfl
      · rfl
  | work thread =>
      rw [step, action?]
      split
      · next counters update todo taken => simp only [taken]; rfl
      · next log bytes todo taken => simp only [taken]; rfl
      · next none => simp only [none]; rfl
  | call call | go env => rfl

theorem shared_run (running : Running routes) (inputs : List Input) :
    (setup.machine.run running inputs).shared =
      (Shared.machine setup.statsCrates).run running.shared (setup.actions running inputs) :=
  setup.machine.run_part (Shared.machine setup.statsCrates) Running.shared
    (setup.shared_next) running inputs

end Setup

/-! ## Bodies are what the notes say -/

/-- A body is metered and logged as its note asks.  An upload that has ended before it begins is
left alone. -/
structure Note.Fits (hints : Hints) (note : Note routes)
    (body : ProxyBody (Pair routes) RequestLog) : Prop where
  meter : body.meter? = note.part.meter note.counters ∨
    note.part = .upload ∧ body.meter? = none ∧ (hints.Documented → body.frames = [])
  counting : body.counting = (note.log.map fun log => (log, note.read)).toList

namespace Note

theorem fits_answer (hints : Hints) (asked : Served (Pair routes)) (response : Response) :
    (answer asked response).Fits hints (asked.respond response).1 where
  meter := .inl (asked.meter_respond response)
  counting := by
    rw [asked.counting_respond, answer, Option.map_map]
    rfl

theorem fits_upload (hints : Hints) (asked : Served (Pair routes)) (frames : List Frame) :
    (upload asked).Fits hints (requestBody hints asked.counters frames).1 where
  meter := by
    rcases meter_requestBody hints asked.counters frames with same | ended
    · exact .inl same
    · exact .inr ⟨rfl, ended⟩
  counting := counting_requestBody hints asked.counters frames

namespace Fits

variable {hints : Hints} {note : Note routes} {body : ProxyBody (Pair routes) RequestLog}

theorem poll (fits : note.Fits hints body) (arrived : Bool) :
    (note.poll (body.pollFrame arrived).1).Fits hints (body.pollFrame arrived).2.1 := by
  have streamed := body.streamed_poll arrived
  refine ⟨?_, ?_⟩
  · rw [streamed.meter]
    rcases fits.meter with same | ⟨upload, none, ended⟩
    · exact .inl same
    · refine .inr ⟨upload, none, fun documented => ?_⟩
      have frames := streamed.frames
      rw [ended documented] at frames
      exact (List.append_eq_nil_iff.mp frames).2
  · rw [streamed.counting, fits.counting, Note.poll]
    cases note.log <;> simp

/-- What is added to the counters is the traffic. -/
theorem amount_poll (fits : note.Fits hints body) (documented : hints.Documented)
    (arrived : Bool) (pair : Pair routes) (field : Field) :
    ((body.pollFrame arrived).2.2.map (Effect.amount pair field)).sum =
      Event.traffic pair field (.read note (body.pollFrame arrived).1) := by
  have streamed := body.streamed_poll arrived
  have amount := streamed.amount pair field
  rw [List.map_singleton, List.sum_singleton] at amount
  rw [amount, Event.traffic]
  rcases fits.meter with same | ⟨upload, none, ended⟩
  · rw [same]
    cases part : note.part <;> cases own : note.counters <;> cases field <;>
      simp [Part.meter, Part.field?, Meter.field]
  · -- Nothing is left to be read.
    have frames := streamed.frames
    rw [ended documented] at frames
    have nothing : (body.pollFrame arrived).1.dataLength = 0 := by
      have none := (List.append_eq_nil_iff.mp frames).1
      cases found : (body.pollFrame arrived).1.frame? with
      | none => simp [Poll.dataLength, found]
      | some frame => simp [found] at none
    simp [nothing]

theorem flow_drop (fits : note.Fits hints body) (pair : Pair routes) :
    (body.drop.map (Effect.flow pair)).sum = -note.alive pair := by
  rw [body.flow_drop, alive]
  rcases fits.meter with same | ⟨upload, none, -⟩
  · rw [same]
    cases part : note.part <;> cases own : note.counters with
      | none => simp [Part.meter]
      | some other => by_cases same : other = pair <;> simp [Part.meter, same]
  · simp [none, upload]

end Fits

end Note

/-- The notes are right: they have what handlers keep of their requests, bodies are what they
say, and tunnels belong to the route that their request went to. -/
structure Noted.Sound (setup : Setup routes) (noted : Noted routes) : Prop where
  waiting : noted.running.waiting = noted.notes.asked
  tasks : ∀ id key task asked, noted.running.state.tasks id = some (key, task) →
    noted.notes.asked id = some asked →
      (asked.counters.map fun pair => (pair.1, Kind.api)) =
        (setup.kinds key).map fun kinds => kinds .api
  bodies : noted.running.bodies.Paired (fun body note => note.Fits setup.hints body)
    noted.notes.bodies
  tunnels : noted.running.tunnels = noted.notes.tunnels

namespace Setup

variable (setup : Setup routes)

/-- A request is answered at once, or leaves a handler under the next number. -/
theorem handle_request (running : Running routes) (req : Request) (conn : ConnInfo) (env : Env) :
    (∃ response, answer? (setup.handle running (.request req conn env)).2 = some response ∧
      (setup.handle running (.request req conn env)).1.tasks = running.state.tasks) ∨
    answer? (setup.handle running (.request req conn env)).2 = none ∧
      ∃ proxy task, setup.server.routes.lookup (Server.hostKey req) = some proxy ∧
        (setup.handle running (.request req conn env)).1.tasks =
          Function.update running.state.tasks running.state.nextTask
            (some (Server.hostKey req, task)) := by
  rw [handle, Server.step]
  cases found : setup.server.routes.lookup (Server.hostKey req) with
  | none => exact .inl ⟨_, rfl, rfl⟩
  | some proxy =>
      dsimp only
      split
      · exact .inl ⟨_, rfl, rfl⟩
      · exact .inr ⟨rfl, proxy, _, rfl, rfl⟩

/-- A reply is for a handler that waits, which answers, or changes nothing. -/
theorem handle_reply (running : Running routes) (task : Nat) (result : SendResult) (env : Env) :
    (∃ response, answer? (setup.handle running (.reply task result env)).2 = some response ∧
      (setup.handle running (.reply task result env)).1.tasks =
        Function.update running.state.tasks task none) ∨
    answer? (setup.handle running (.reply task result env)).2 = none ∧
      (setup.handle running (.reply task result env)).1 = running.state := by
  rw [handle, Server.step]
  cases there : running.state.tasks task with
  | none => exact .inr ⟨rfl, rfl⟩
  | some entry =>
      obtain ⟨key, kept⟩ := entry
      dsimp only
      cases found : setup.server.routes.lookup key with
      | none => exact .inr ⟨rfl, rfl⟩
      | some proxy =>
          refine .inl ⟨(proxy.resume setup.crates (running.state.world key) env kept
            result).response, ?_, rfl⟩
          rw [answer?, List.getLast?_append, List.getLast?_singleton, Option.some_or]

theorem api_asked {req : Request} {proxy : RouteProxy}
    (found : setup.server.routes.lookup (Server.hostKey req) = some proxy) (conn : ConnInfo) :
    ((setup.asked req conn).counters.map fun pair => (pair.1, Kind.api)) =
      (setup.kinds (Server.hostKey req)).map fun kinds => kinds .api := by
  simp only [asked, found, kinds]
  cases setup.statsEnable with
  | false => rfl
  | true => simp [Option.map_map, Function.comp_def]

/-- The counters of a tunnel are those of the route of its request. -/
theorem tunnel_eq {noted : Noted routes} (sound : noted.Sound setup) {task : Nat}
    {asked : Served (Pair routes)} (known : noted.notes.asked task = some asked)
    {result : SendResult} {counters : Option (Pair routes)}
    (opens : setup.tunnel? noted.running.state task result = some counters) :
    counters = asked.counters.map fun pair => (pair.1, .api) := by
  cases there : noted.running.state.tasks task with
  | none => simp [tunnel?, there] at opens
  | some entry =>
      obtain ⟨key, kept⟩ := entry
      rw [sound.tasks task key kept asked there known]
      cases kept with
      | upstream upstream =>
          cases result with
          | reply reply =>
              simp only [tunnel?, there, Option.ite_none_right_eq_some, Option.some.injEq] at opens
              exact opens.2.symm
          | _ => simp [tunnel?, there] at opens
      | _ => simp [tunnel?, there] at opens

/-! ### What each input does -/

section Step

variable {noted : Noted routes}

/-- A thread in the middle of its updates does not go on with anything else. -/
theorem step_busy {thread : Nat} (busy : noted.running.idle thread = false) (input : Input)
    (mine : (∃ req conn env upload, input = .request thread req conn env upload) ∨
      (∃ task result env, input = .reply thread task result env) ∨
      (∃ id arrived, input = .poll thread id arrived) ∨ (∃ id, input = .drop thread id) ∨
      ∃ id bytes, input = .copied thread id bytes) :
    setup.noted.step noted input = (noted, []) ∧ setup.event noted input = none := by
  rcases mine with ⟨req, conn, env, upload, rfl⟩ | ⟨task, result, env, rfl⟩ |
    ⟨id, arrived, rfl⟩ | ⟨id, rfl⟩ | ⟨id, bytes, rfl⟩ <;>
    simp [Setup.noted, step, note, event, busy]

theorem step_answered {thread : Nat} (idle : noted.running.idle thread = true) {req : Request}
    {conn : ConnInfo} {env : Env} {upload : List Frame} {response : Response}
    (answers : answer? (setup.handle noted.running (.request req conn env)).2 = some response) :
    setup.noted.step noted (.request thread req conn env upload) =
      (⟨(({ noted.running with
              state := (setup.handle noted.running (.request req conn env)).1 } :
            Running routes).perform thread (setup.asked req conn).arrive).give thread
          ((setup.asked req conn).respond response),
        { noted.notes with
          bodies := noted.notes.bodies.push (.answer (setup.asked req conn) response) }⟩,
        (setup.handle noted.running (.request req conn env)).2.map .server) := by
  simp only [Setup.noted, step, note, idle, if_true, served_eq_asked, answers]

theorem step_forwarded {thread : Nat} (idle : noted.running.idle thread = true) {req : Request}
    {conn : ConnInfo} {env : Env} {upload : List Frame}
    (answers : answer? (setup.handle noted.running (.request req conn env)).2 = none) :
    setup.noted.step noted (.request thread req conn env upload) =
      (⟨({ ({ noted.running with
                state := (setup.handle noted.running (.request req conn env)).1 } :
              Running routes).perform thread (setup.asked req conn).arrive with
            waiting := Function.update noted.running.waiting noted.running.state.nextTask
              (some (setup.asked req conn)) } : Running routes).give thread
          (requestBody setup.hints (setup.asked req conn).counters upload),
        { noted.notes with
          asked := Function.update noted.notes.asked noted.running.state.nextTask
            (some (setup.asked req conn))
          bodies := noted.notes.bodies.push (.upload (setup.asked req conn)) }⟩,
        (setup.handle noted.running (.request req conn env)).2.map .server) := by
  simp only [Setup.noted, step, note, idle, if_true, served_eq_asked, answers]

/-- The tunnels after a reply. -/
def opened (tunnels : Slots (Option (Pair routes))) (opens : Bool)
    (counters : Option (Pair routes)) : Slots (Option (Pair routes)) :=
  if opens then tunnels.push (counters.map fun pair => (pair.1, .api)) else tunnels

theorem step_resumed (sound : noted.Sound setup) {thread : Nat}
    (idle : noted.running.idle thread = true) {task : Nat} {result : SendResult} {env : Env}
    {response : Response} {asked : Served (Pair routes)}
    (answers : answer? (setup.handle noted.running (.reply task result env)).2 = some response)
    (known : noted.notes.asked task = some asked) :
    let tunnels := opened noted.notes.tunnels
      (setup.tunnel? noted.running.state task result).isSome asked.counters
    setup.noted.step noted (.reply thread task result env) =
      (⟨({ noted.running with
            state := (setup.handle noted.running (.reply task result env)).1
            tunnels
            waiting := Function.update noted.running.waiting task none } :
          Running routes).give thread (asked.respond response),
        { asked := Function.update noted.notes.asked task none
          bodies := noted.notes.bodies.push (.answer asked response)
          tunnels }⟩,
        (setup.handle noted.running (.reply task result env)).2.map .server) := by
  have waits : noted.running.waiting task = some asked := by rw [sound.waiting, known]
  cases opens : setup.tunnel? noted.running.state task result with
  | none =>
      simp only [Setup.noted, step, note, idle, if_true, answers, waits, known, opens, opened,
        Option.isSome_none, Bool.false_eq_true, if_false, sound.tunnels]
  | some counters =>
      have same := setup.tunnel_eq sound known opens
      simp only [Setup.noted, step, note, idle, if_true, answers, waits, known, opens, opened,
        Option.isSome_some, sound.tunnels, same]

end Step

/-- What a step does to the bodies, the notes on them and what is left to do. -/
inductive Steps (noted : Noted routes) (input : Input) (next : Noted routes)
    (outputs : List Output) : Prop where
  | still (event : setup.event noted input = none)
      (silent : action? noted.running input = none)
      (bodies : next.running.bodies = noted.running.bodies)
      (notes : next.notes.bodies = noted.notes.bodies)
      (todo : next.running.todo = noted.running.todo)
      (quiet : ∀ log bytes, .logged log bytes ∉ outputs)
  | made (thread : Nat) (asked : Served (Pair routes)) (answer : Response)
      (front : List (Effect (Pair routes) RequestLog))
      (event : front = asked.arrive ∧
          setup.event noted input = some (.arrived asked (some answer)) ∨
        front = [] ∧ setup.event noted input = some (.answered asked answer))
      (silent : action? noted.running input = none)
      (bodies : next.running.bodies = noted.running.bodies.push (asked.respond answer).1)
      (notes : next.notes.bodies = noted.notes.bodies.push (.answer asked answer))
      (todo : next.running.todo = noted.running.todo ++
        (front ++ (asked.respond answer).2).map fun effect => (thread, effect))
      (quiet : ∀ log bytes, .logged log bytes ∉ outputs)
  | forwarded (thread : Nat) (asked : Served (Pair routes)) (upload : List Frame)
      (event : setup.event noted input = some (.arrived asked none))
      (silent : action? noted.running input = none)
      (bodies : next.running.bodies =
        noted.running.bodies.push (requestBody setup.hints asked.counters upload).1)
      (notes : next.notes.bodies = noted.notes.bodies.push (.upload asked))
      (todo : next.running.todo = noted.running.todo ++
        asked.arrive.map fun effect => (thread, effect))
      (quiet : ∀ log bytes, .logged log bytes ∉ outputs)
  | read (thread id : Nat) (body : ProxyBody (Pair routes) RequestLog) (note : Note routes)
      (arrived : Bool) (event : setup.event noted input =
        some (.read note (body.pollFrame arrived).1))
      (silent : action? noted.running input = none)
      (there : noted.running.bodies.get id = some body)
      (known : noted.notes.bodies.get id = some note)
      (bodies : next.running.bodies =
        noted.running.bodies.modify id fun _ => some (body.pollFrame arrived).2.1)
      (notes : next.notes.bodies =
        noted.notes.bodies.modify id fun note => some (note.poll (body.pollFrame arrived).1))
      (todo : next.running.todo = noted.running.todo ++
        (body.pollFrame arrived).2.2.map fun effect => (thread, effect))
      (quiet : ∀ log bytes, .logged log bytes ∉ outputs)
  | dropped (thread id : Nat) (body : ProxyBody (Pair routes) RequestLog) (note : Note routes)
      (event : setup.event noted input = some (.dropped note))
      (silent : action? noted.running input = none)
      (there : noted.running.bodies.get id = some body)
      (known : noted.notes.bodies.get id = some note)
      (bodies : next.running.bodies = noted.running.bodies.remove id)
      (notes : next.notes.bodies = noted.notes.bodies.remove id)
      (todo : next.running.todo = noted.running.todo ++
        body.drop.map fun effect => (thread, effect))
      (quiet : ∀ log bytes, .logged log bytes ∉ outputs)
  | tunnelled (thread : Nat) (counters : Pair routes) (sent received : Nat)
      (event : setup.event noted input = some (.tunnelled counters sent received))
      (silent : action? noted.running input = none)
      (bodies : next.running.bodies = noted.running.bodies)
      (notes : next.notes.bodies = noted.notes.bodies)
      (todo : next.running.todo = noted.running.todo ++
        [(thread, .update counters (.addBytesIn sent)),
          (thread, .update counters (.addBytesOut received))])
      (quiet : ∀ log bytes, .logged log bytes ∉ outputs)
  | performed (thread : Nat) (counters : Pair routes) (update : Update)
      (event : setup.event noted input = none)
      (acts : action? noted.running input = some (.add thread counters.1 counters.2 update))
      (bodies : next.running.bodies = noted.running.bodies)
      (notes : next.notes.bodies = noted.notes.bodies)
      (todo : Agenda.take thread noted.running.todo =
        some (.update counters update, next.running.todo))
      (quiet : ∀ log bytes, .logged log bytes ∉ outputs)
  | logged (thread : Nat) (log : RequestLog) (bytes : Nat)
      (event : setup.event noted input = none)
      (silent : action? noted.running input = none)
      (bodies : next.running.bodies = noted.running.bodies)
      (notes : next.notes.bodies = noted.notes.bodies)
      (todo : Agenda.take thread noted.running.todo = some (.done log bytes, next.running.todo))
      (writes : outputs = [.logged log bytes])
  | called (action : Stats.Action routes) (calm : Shared.Quiet action)
      (event : setup.event noted input = none)
      (acts : action? noted.running input = some action)
      (bodies : next.running.bodies = noted.running.bodies)
      (notes : next.notes.bodies = noted.notes.bodies)
      (todo : next.running.todo = noted.running.todo)
      (quiet : ∀ log bytes, .logged log bytes ∉ outputs)

section Cases

variable {setup} {noted : Noted routes}

theorem Steps.busy {input : Input}
    (busy : setup.noted.step noted input = (noted, []) ∧ setup.event noted input = none)
    (silent : action? noted.running input = none) :
    setup.Steps noted input (setup.noted.next noted input) (setup.noted.outputs noted input) := by
  have next : setup.noted.next noted input = noted := congrArg Prod.fst busy.1
  have outputs : setup.noted.outputs noted input = [] := congrArg Prod.snd busy.1
  rw [next, outputs]
  exact .still busy.2 silent rfl rfl rfl (by simp)

theorem steps_request (thread : Nat) (req : Request) (conn : ConnInfo) (env : Env)
    (upload : List Frame) :
    let input := Input.request thread req conn env upload
    setup.Steps noted input (setup.noted.next noted input) (setup.noted.outputs noted input) := by
  intro input
  cases idle : noted.running.idle thread with
  | false => exact .busy (setup.step_busy idle _ (.inl ⟨_, _, _, _, rfl⟩)) rfl
  | true =>
      rw [Machine.next, Machine.outputs]
      rcases setup.handle_request noted.running req conn env with
        ⟨response, answers, -⟩ | ⟨answers, -⟩
      · rw [setup.step_answered idle answers]
        refine .made thread (setup.asked req conn) response _ (.inl ⟨rfl, ?_⟩) rfl rfl rfl ?_
          (by simp)
        · simp [input, event, idle, answers]
        · simp [Running.give, Running.perform]
      · rw [setup.step_forwarded idle answers]
        refine .forwarded thread (setup.asked req conn) upload ?_ rfl rfl rfl ?_ (by simp)
        · simp [input, event, idle, answers]
        · simp [Running.give, Running.perform, effects_requestBody]

theorem steps_reply (sound : noted.Sound setup) (thread task : Nat) (result : SendResult)
    (env : Env) :
    let input := Input.reply thread task result env
    setup.Steps noted input (setup.noted.next noted input) (setup.noted.outputs noted input) := by
  intro input
  cases idle : noted.running.idle thread with
  | false => exact .busy (setup.step_busy idle _ (.inr (.inl ⟨_, _, _, rfl⟩))) rfl
  | true =>
      rw [Machine.next, Machine.outputs]
      cases answers : answer? (setup.handle noted.running (.reply task result env)).2 with
      | none =>
          refine .still (by simp [input, event, idle, answers]) rfl ?_ ?_ ?_ ?_ <;>
            simp [input, Setup.noted, step, note, idle, answers]
      | some response =>
          cases known : noted.notes.asked task with
          | none =>
              have waits : noted.running.waiting task = none := by rw [sound.waiting, known]
              refine .still (by simp [input, event, idle, answers, known]) rfl ?_ ?_ ?_ ?_ <;>
                simp [input, Setup.noted, step, note, idle, answers, known, waits]
          | some asked =>
              rw [setup.step_resumed sound idle answers known]
              refine .made thread asked response [] (.inr ⟨rfl, ?_⟩) rfl rfl rfl rfl (by simp)
              simp [input, event, idle, answers, known]

theorem steps_poll (sound : noted.Sound setup) (thread id : Nat) (arrived : Bool) :
    let input := Input.poll thread id arrived
    setup.Steps noted input (setup.noted.next noted input) (setup.noted.outputs noted input) := by
  intro input
  cases idle : noted.running.idle thread with
  | false => exact .busy (setup.step_busy idle _ (.inr (.inr (.inl ⟨_, _, rfl⟩)))) rfl
  | true =>
      rw [Machine.next, Machine.outputs]
      cases there : noted.running.bodies.get id with
      | none =>
          refine .still (by simp [input, event, idle, there]) rfl ?_ ?_ ?_ ?_ <;>
            simp [input, Setup.noted, step, note, idle, there]
      | some body =>
          obtain ⟨note, known, -⟩ := sound.bodies.other_of_get there
          refine .read thread id body note arrived (by simp [input, event, idle, there, known])
            rfl there known ?_ ?_ ?_ ?_ <;>
            simp [input, Setup.noted, step, Setup.note, idle, there, Running.perform]

theorem steps_drop (sound : noted.Sound setup) (thread id : Nat) :
    let input := Input.drop thread id
    setup.Steps noted input (setup.noted.next noted input) (setup.noted.outputs noted input) := by
  intro input
  cases idle : noted.running.idle thread with
  | false => exact .busy (setup.step_busy idle _ (.inr (.inr (.inr (.inl ⟨_, rfl⟩))))) rfl
  | true =>
      rw [Machine.next, Machine.outputs]
      cases there : noted.running.bodies.get id with
      | none =>
          have known := sound.bodies.none_of_get there
          have same : noted.notes.bodies.remove id = noted.notes.bodies :=
            Slots.remove_of_none known
          refine .still (by simp [input, event, idle, known]) rfl ?_ ?_ ?_ ?_ <;>
            simp [input, Setup.noted, step, note, idle, there, same]
      | some body =>
          obtain ⟨note, known, -⟩ := sound.bodies.other_of_get there
          refine .dropped thread id body note (by simp [input, event, idle, known]) rfl there
            known ?_ ?_ ?_ ?_ <;>
            simp [input, Setup.noted, step, Setup.note, idle, there, Running.perform]

theorem steps_copied (sound : noted.Sound setup) (thread id : Nat)
    (bytes : Option (Nat × Nat)) :
    let input := Input.copied thread id bytes
    setup.Steps noted input (setup.noted.next noted input) (setup.noted.outputs noted input) := by
  intro input
  cases idle : noted.running.idle thread with
  | false => exact .busy (setup.step_busy idle _ (.inr (.inr (.inr (.inr ⟨_, _, rfl⟩))))) rfl
  | true =>
      have tunnels := sound.tunnels
      rw [Machine.next, Machine.outputs]
      rcases there : noted.notes.tunnels.get id with _ | _ | counters
      · refine .still (by simp [input, event, idle, there]) rfl ?_ ?_ ?_ ?_ <;>
          simp [input, Setup.noted, step, note, idle, there, tunnels]
      · refine .still (by simp [input, event, idle, there]) rfl ?_ ?_ ?_ ?_ <;>
          simp [input, Setup.noted, step, note, idle, there, tunnels, Running.perform]
      · rcases bytes with _ | ⟨sent, received⟩
        · refine .still (by simp [input, event, idle, there]) rfl ?_ ?_ ?_ ?_ <;>
            simp [input, Setup.noted, step, note, idle, there, tunnels, Running.perform]
        · refine .tunnelled thread counters sent received (by simp [input, event, idle, there])
            rfl ?_ ?_ ?_ ?_ <;>
            simp [input, Setup.noted, step, note, idle, there, tunnels, Running.perform]

theorem steps_work (thread : Nat) :
    setup.Steps noted (.work thread) (setup.noted.next noted (.work thread))
      (setup.noted.outputs noted (.work thread)) := by
  rw [Machine.next, Machine.outputs]
  rcases taken : Agenda.take thread noted.running.todo with
    _ | ⟨⟨counters, update⟩ | ⟨log, bytes⟩, todo⟩
  · refine .still rfl ?_ ?_ ?_ ?_ ?_ <;> simp [Setup.noted, step, note, action?, taken]
  · refine .performed thread counters update rfl ?_ ?_ ?_ ?_ ?_ <;>
      simp [Setup.noted, step, note, action?, taken]
  · refine .logged thread log bytes rfl ?_ ?_ ?_ ?_ ?_ <;>
      simp [Setup.noted, step, note, action?, taken]

theorem steps (sound : noted.Sound setup) (input : Input) :
    setup.Steps noted input (setup.noted.next noted input)
      (setup.noted.outputs noted input) := by
  cases input with
  | request thread req conn env upload => exact steps_request thread req conn env upload
  | reply thread task result env => exact steps_reply sound thread task result env
  | poll thread id arrived => exact steps_poll sound thread id arrived
  | drop thread id => exact steps_drop sound thread id
  | copied thread id bytes => exact steps_copied sound thread id bytes
  | work thread => exact steps_work thread
  | abandon task =>
      exact .still rfl rfl rfl rfl rfl (by simp [Machine.outputs, Setup.noted, step])
  | call call =>
      exact .called (.call call) trivial rfl rfl rfl rfl rfl
        (by simp [Machine.outputs, Setup.noted, step])
  | go env =>
      exact .called (.go env) trivial rfl rfl rfl rfl rfl
        (by simp [Machine.outputs, Setup.noted, step])

end Cases

end Setup

/-! ## The notes stay right -/

namespace Noted.Sound

variable {setup : Setup routes} {noted : Noted routes}

theorem start (setup : Setup routes) (state : State) (shared : Shared routes) :
    (Running.start state shared).noted.Sound setup where
  waiting := rfl
  tasks _ _ _ _ _ known := by cases known
  bodies := .empty
  tunnels := rfl

/-- The bodies and the notes on them come and go together. -/
theorem bodies_next (sound : noted.Sound setup) (input : Input) :
    let next := setup.noted.next noted input
    next.running.bodies.Paired (fun body note => note.Fits setup.hints body)
      next.notes.bodies := by
  intro next
  cases setup.steps sound input with
  | still event silent bodies notes
  | tunnelled thread counters sent received event silent bodies notes
  | performed thread counters update event acts bodies notes
  | logged thread log bytes event silent bodies notes
  | called action calm event acts bodies notes =>
      rw [bodies, notes]
      exact sound.bodies
  | made thread asked answer front event silent bodies notes =>
      rw [bodies, notes]
      exact sound.bodies.push (Note.fits_answer setup.hints asked answer)
  | forwarded thread asked upload event silent bodies notes =>
      rw [bodies, notes]
      exact sound.bodies.push (Note.fits_upload setup.hints asked upload)
  | read thread id body note arrived event silent there known bodies notes =>
      rw [bodies, notes]
      refine sound.bodies.modify fun value other found _ fits => .inr ⟨_, _, rfl, rfl, ?_⟩
      obtain rfl := Option.some.inj (there.symm.trans found)
      exact fits.poll arrived
  | dropped thread id body note event silent there known bodies notes =>
      rw [bodies, notes]
      exact sound.bodies.remove id

/-- A request that is forwarded is noted under the number of its handler. -/
theorem next_request (sound : noted.Sound setup)
    (thread : Nat) (req : Request) (conn : ConnInfo) (env : Env) (upload : List Frame) :
    (setup.noted.next noted (.request thread req conn env upload)).Sound setup := by
  have bodies := sound.bodies_next (.request thread req conn env upload)
  rw [Machine.next] at bodies ⊢
  cases idle : noted.running.idle thread with
  | false =>
      rw [(setup.step_busy idle (.request thread req conn env upload)
        (.inl ⟨_, _, _, _, rfl⟩)).1]
      exact sound
  | true =>
      rcases setup.handle_request noted.running req conn env with
        ⟨response, answers, tasks⟩ | ⟨answers, proxy, task, found, tasks⟩
      · rw [setup.step_answered idle answers] at bodies ⊢
        exact ⟨sound.waiting, tasks ▸ sound.tasks, bodies, sound.tunnels⟩
      · rw [setup.step_forwarded idle answers] at bodies ⊢
        refine ⟨congrArg (Function.update · _ _) sound.waiting, ?_, bodies, sound.tunnels⟩
        intro id key kept asked there known
        have there' : (setup.handle noted.running (.request req conn env)).1.tasks id =
            some (key, kept) := there
        have known' : Function.update noted.notes.asked noted.running.state.nextTask
            (some (setup.asked req conn)) id = some asked := known
        rw [tasks] at there'
        by_cases same : id = noted.running.state.nextTask
        · subst same
          rw [Function.update_self, Option.some.injEq] at there' known'
          obtain ⟨rfl, -⟩ := Prod.mk.inj there'
          exact known' ▸ setup.api_asked found conn
        · rw [Function.update_of_ne same] at there' known'
          exact sound.tasks id key kept asked there' known'

/-- A handler that answers is noted no longer. -/
theorem next_reply (sound : noted.Sound setup)
    (thread task : Nat) (result : SendResult) (env : Env) :
    (setup.noted.next noted (.reply thread task result env)).Sound setup := by
  have bodies := sound.bodies_next (.reply thread task result env)
  rw [Machine.next] at bodies ⊢
  cases idle : noted.running.idle thread with
  | false =>
      rw [(setup.step_busy idle (.reply thread task result env)
        (.inr (.inl ⟨_, _, _, rfl⟩))).1]
      exact sound
  | true =>
      rcases setup.handle_reply noted.running task result env with
        ⟨response, answers, tasks⟩ | ⟨answers, same⟩
      · -- The handlers that are left are those that waited, but for this one.
        have others : ∀ id key kept,
            (setup.handle noted.running (.reply task result env)).1.tasks id = some (key, kept) →
              id ≠ task ∧ noted.running.state.tasks id = some (key, kept) := by
          intro id key kept there
          rw [tasks] at there
          by_cases same : id = task
          · rw [same, Function.update_self] at there
            cases there
          · rw [Function.update_of_ne same] at there
            exact ⟨same, there⟩
        cases known : noted.notes.asked task with
        | none =>
            have waits : noted.running.waiting task = none := by rw [sound.waiting, known]
            simp only [Setup.noted, Setup.step, Setup.note, idle, if_true, answers, waits,
              known] at bodies ⊢
            refine ⟨sound.waiting, ?_, bodies, sound.tunnels⟩
            intro id key kept asked there known'
            exact sound.tasks id key kept asked (others id key kept there).2 known'
        | some asked =>
            rw [setup.step_resumed sound idle answers known] at bodies ⊢
            refine ⟨congrArg (Function.update · _ _) sound.waiting, ?_, bodies, rfl⟩
            intro id key kept asked' there known'
            obtain ⟨other, there⟩ := others id key kept there
            exact sound.tasks id key kept asked' there
              ((Function.update_of_ne other _ _).symm.trans known')
      · simp only [Setup.noted, Setup.step, Setup.note, idle, if_true, answers] at bodies ⊢
        exact ⟨sound.waiting, same ▸ sound.tasks, bodies, sound.tunnels⟩

theorem next_abandon (sound : noted.Sound setup) (task : Nat) :
    (setup.noted.next noted (.abandon task)).Sound setup := by
  have bodies := sound.bodies_next (.abandon task)
  rw [Machine.next] at bodies ⊢
  refine ⟨congrArg (Function.update · _ _) sound.waiting, ?_, bodies, sound.tunnels⟩
  intro id key kept asked there known
  have there' : Function.update noted.running.state.tasks task none id =
      some (key, kept) := there
  have known' : Function.update noted.notes.asked task none id = some asked := known
  by_cases same : id = task
  · rw [same, Function.update_self] at there'
    cases there'
  · rw [Function.update_of_ne same] at there' known'
    exact sound.tasks id key kept asked there' known'

theorem next_poll (sound : noted.Sound setup) (thread id : Nat) (arrived : Bool) :
    (setup.noted.next noted (.poll thread id arrived)).Sound setup := by
  have bodies := sound.bodies_next (.poll thread id arrived)
  rw [Machine.next] at bodies ⊢
  cases idle : noted.running.idle thread with
  | false =>
      rw [(setup.step_busy idle (.poll thread id arrived)
        (.inr (.inr (.inl ⟨_, _, rfl⟩)))).1]
      exact sound
  | true =>
      cases there : noted.running.bodies.get id with
      | none =>
          simp only [Setup.noted, Setup.step, Setup.note, idle, if_true, there]
          exact sound
      | some body =>
          simp only [Setup.noted, Setup.step, Setup.note, idle, if_true, there] at bodies ⊢
          exact ⟨sound.waiting, sound.tasks, bodies, sound.tunnels⟩

theorem next_drop (sound : noted.Sound setup) (thread id : Nat) :
    (setup.noted.next noted (.drop thread id)).Sound setup := by
  have bodies := sound.bodies_next (.drop thread id)
  rw [Machine.next] at bodies ⊢
  cases idle : noted.running.idle thread with
  | false =>
      rw [(setup.step_busy idle (.drop thread id)
        (.inr (.inr (.inr (.inl ⟨_, rfl⟩))))).1]
      exact sound
  | true =>
      cases there : noted.running.bodies.get id with
      | none =>
          simp only [Setup.noted, Setup.step, Setup.note, idle, if_true, there] at bodies ⊢
          exact ⟨sound.waiting, sound.tasks, bodies, sound.tunnels⟩
      | some body =>
          simp only [Setup.noted, Setup.step, Setup.note, idle, if_true, there] at bodies ⊢
          exact ⟨sound.waiting, sound.tasks, bodies, sound.tunnels⟩

theorem next_copied (sound : noted.Sound setup) (thread id : Nat) (bytes : Option (Nat × Nat)) :
    (setup.noted.next noted (.copied thread id bytes)).Sound setup := by
  have bodies := sound.bodies_next (.copied thread id bytes)
  rw [Machine.next] at bodies ⊢
  have tunnels := sound.tunnels
  cases idle : noted.running.idle thread with
  | false =>
      rw [(setup.step_busy idle (.copied thread id bytes)
        (.inr (.inr (.inr (.inr ⟨_, _, rfl⟩))))).1]
      exact sound
  | true =>
      cases there : noted.notes.tunnels.get id with
      | none =>
          have same : noted.notes.tunnels.remove id = noted.notes.tunnels :=
            Slots.remove_of_none there
          simp only [Setup.noted, Setup.step, Setup.note, idle, if_true, tunnels, there,
            same] at bodies ⊢
          exact ⟨sound.waiting, sound.tasks, bodies, tunnels⟩
      | some counters =>
          simp only [Setup.noted, Setup.step, Setup.note, idle, if_true, tunnels,
            there] at bodies ⊢
          exact ⟨sound.waiting, sound.tasks, bodies, rfl⟩

/-- The notes stay right. -/
theorem next (sound : noted.Sound setup) (input : Input) :
    (setup.noted.next noted input).Sound setup := by
  have bodies := sound.bodies_next input
  cases input with
  | request thread req conn env upload =>
      exact sound.next_request thread req conn env upload
  | reply thread task result env => exact sound.next_reply thread task result env
  | abandon task => exact sound.next_abandon task
  | poll thread id arrived => exact sound.next_poll thread id arrived
  | drop thread id => exact sound.next_drop thread id
  | copied thread id bytes => exact sound.next_copied thread id bytes
  | work thread =>
      rw [Machine.next] at bodies ⊢
      rcases taken : Agenda.take thread noted.running.todo with
        _ | ⟨⟨counters, update⟩ | ⟨log, bytes⟩, todo⟩ <;>
        simp only [Setup.noted, Setup.step, Setup.note, taken] at bodies ⊢ <;>
        exact ⟨sound.waiting, sound.tasks, bodies, sound.tunnels⟩
  | call call | go env => exact ⟨sound.waiting, sound.tasks, bodies, sound.tunnels⟩

theorem run (sound : noted.Sound setup) (inputs : List Input) :
    (setup.noted.run noted inputs).Sound setup :=
  setup.noted.run_invariant (Noted.Sound setup) (fun _ input sound => sound.next input) sound
    inputs

end Noted.Sound

end Proxemby.Traffic
