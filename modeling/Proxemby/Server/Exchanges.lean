import Proxemby.Server.Identity
import Proxemby.Server.Invariants
import Proxemby.Server.Reference

/-!
# Requests and their answers

Handlers wait for their upstreams in any number and go on in any order.  Each of them answers
the request that it was started for, and a protocol is switched only as that request asked.
-/

namespace Proxemby

open Utf8

namespace Server

variable (crates : Crates) (server : Server)

/-! ## Which handler a step is about -/

/-- What a step does to the handlers: a request is answered at once or leaves a handler, a
handler goes on and answers, or it is dropped with its client. -/
inductive Exchange (state : State) : Input → State → List Output → Prop where
  | answered {req : Request} {conn : ConnInfo} {env : Env} {next : State} (response : Response)
      (tasks : next.tasks = state.tasks) (number : next.nextTask = state.nextTask)
      (plain : response.status ≠ 101) :
      Exchange state (.request req conn env) next [.answered response]
  | left {req : Request} {conn : ConnInfo} {env : Env} {next : State} (proxy : RouteProxy)
      (client : Client) (out : OutRequest) (task : Task)
      (route : server.routes.lookup (hostKey req) = some proxy)
      (flow : (proxy.handleChecked crates (state.world (hostKey req)) env req conn).flow =
        .send client out task)
      (tasks : next.tasks =
        Function.update state.tasks state.nextTask (some (hostKey req, task)))
      (number : next.nextTask = state.nextTask + 1) :
      Exchange state (.request req conn env) next [.sent (hostKey req) client out]
  | resumed {id : Nat} {result : SendResult} {env : Env} {next : State} (key : Str) (task : Task)
      (proxy : RouteProxy) (there : state.tasks id = some (key, task))
      (tasks : next.tasks = Function.update state.tasks id none)
      (number : next.nextTask = state.nextTask) :
      Exchange state (.reply id result env) next
        ((proxy.resume crates (state.world key) env task result).spawned.map
            (.sent key .default) ++
          [.answered (proxy.resume crates (state.world key) env task result).response])
  | ignored {id : Nat} {result : SendResult} {env : Env} :
      Exchange state (.reply id result env) state []
  | dropped {id : Nat} {next : State} (tasks : next.tasks = Function.update state.tasks id none)
      (number : next.nextTask = state.nextTask) : Exchange state (.drop id) next []

end Server

namespace RouteProxy

variable {crates : Crates} {proxy : RouteProxy}

/-- The proxy does not switch protocols on its own. -/
theorem proxyUpstream_plain {auth : Option Store} {req : Request} {conn : ConnInfo}
    {logout : Option Str} {response : Response}
    (answers : proxy.proxyUpstream crates auth req conn logout = .answer response) :
    response.status ≠ 101 := by
  rw [proxyUpstream] at answers
  split at answers
  · obtain rfl := Flow.answer.inj answers
    decide
  · cases answers

theorem proxyResource_plain {world : World} {req : Request} {response : Response}
    (answers : proxy.proxyResource crates world req = .answer response) :
    response.status ≠ 101 := by
  rw [proxyResource] at answers
  split at answers
  · obtain rfl := Flow.answer.inj answers
    exact (by decide : (400 : Nat) ≠ 101)
  · split at answers
    · obtain rfl := Flow.answer.inj answers
      decide
    · split at answers
      · obtain rfl := Flow.answer.inj answers
        decide
      · dsimp only at answers
        split at answers
        · obtain rfl := Flow.answer.inj answers
          decide
        · cases answers

theorem handleChecked_plain {world : World} {env : Env} {req : Request} {conn : ConnInfo}
    {response : Response}
    (answers : (proxy.handleChecked crates world env req conn).flow = .answer response) :
    response.status ≠ 101 := by
  rw [handleChecked] at answers
  split at answers
  · obtain rfl := Flow.answer.inj answers
    decide
  · split at answers
    · rw [handleWithAuth] at answers
      split at answers
      · exact proxyResource_plain answers
      · dsimp only at answers
        split at answers
        · obtain rfl := Flow.answer.inj answers
          decide
        · split at answers
          · exact proxyUpstream_plain answers
          · split at answers
            · obtain rfl := Flow.answer.inj answers
              decide
            · split at answers
              · split at answers
                · next answered =>
                    obtain rfl := Flow.answer.inj answers
                    exact proxyUpstream_plain answered
                · cases answers
              · obtain rfl := Flow.answer.inj answers
                decide
    · rw [routeRequest] at answers
      split at answers
      · exact proxyResource_plain answers
      · exact proxyUpstream_plain answers

/-- An upstream switches protocols only as the request of the handler asked for. -/
theorem upstreamReply_switches {world : World} {env : Env} {task : UpstreamTask}
    {result : SendResult}
    (switches : (proxy.upstreamReply crates world env task result).response.status = 101) :
    ∃ reply requested offered, result = .reply reply ∧ reply.status = 101 ∧
      task.requestUpgrade = some requested ∧ upgradeType reply.headers = some offered ∧
      eqIgnoreAsciiCaseBytes offered requested = true := by
  rw [upstreamReply] at switches
  cases result with
  | timeout => exact absurd switches (by decide : (504 : Nat) ≠ 101)
  | error message => exact absurd switches (by decide : (502 : Nat) ≠ 101)
  | reply reply =>
      dsimp only [SendResult.toReply] at switches
      split at switches
      · next switched =>
          cases asked : task.requestUpgrade with
          | none =>
              rw [asked] at switches
              exact absurd switches (by decide : (502 : Nat) ≠ 101)
          | some requested =>
              rw [asked, handleUpgradeResponse] at switches
              split at switches
              · next agrees =>
                  obtain ⟨offered, named, same⟩ := (Option.any_eq_true _ _).mp agrees
                  exact ⟨reply, requested, offered, rfl, switched, rfl, named, same⟩
              · exact absurd switches (by decide : (502 : Nat) ≠ 101)
      · next other =>
          -- Everything else has the status of the upstream, or one of the proxy.
          exfalso
          split at switches
          · next store login =>
              rw [handleLoginResponse] at switches
              split at switches
              · exact other switches
              · split at switches
                · exact absurd switches (by decide : (502 : Nat) ≠ 101)
                · dsimp only at switches
                  split at switches
                  · split at switches
                    · exact absurd switches (by decide : (502 : Nat) ≠ 101)
                    · exact other switches
                  · exact absurd switches (by decide : (401 : Nat) ≠ 101)
          · split at switches
            · rw [rewritePlaybackInfo] at switches
              split at switches
              · exact absurd switches (by decide : (502 : Nat) ≠ 101)
              · exact other switches
            · exact other switches

/-- A request that asks for an upgrade, and what is sent for it. -/
structure AsksUpgrade (req : Request) (requested : HeaderValue) (client : Client)
    (out : OutRequest) : Prop where
  asked : upgradeType req.headers = some requested
  client : client = .http1
  connection : out.headers.getAll "connection".toList = [.fromStatic "Upgrade"]
  upgrade : out.headers.getAll "upgrade".toList = [requested]

/-- What `proxy_upstream` leaves behind asks for the upgrade that the client asks for. -/
theorem proxyUpstream_upgrade {auth : Option Store} {req : Request} {conn : ConnInfo}
    {logout : Option Str} {client : Client} {out : OutRequest} {task : Task}
    (sent : proxy.proxyUpstream crates auth req conn logout = .send client out task) :
    ∃ upstream : UpstreamTask, task = .upstream upstream ∧
      ∀ requested, upstream.requestUpgrade = some requested →
        AsksUpgrade req requested client out := by
  have values := getAll_proxyUpstream crates proxy sent
  rw [proxyUpstream] at sent
  split at sent
  · cases sent
  · cases sent
    refine ⟨_, rfl, ?_⟩
    intro requested asked
    dsimp only at asked
    refine ⟨asked, by rw [asked]; rfl, ?_, ?_⟩
    · rw [values, asked]
      simp [forwardedValues, putBack, forwardingHeaders, hopByHop]
    · rw [values, asked]
      simp [forwardedValues, putBack, forwardingHeaders, hopByHop]

end RouteProxy

namespace Server

variable (crates : Crates) (server : Server)

theorem exchange (state : State) (input : Input) :
    server.Exchange crates state input ((server.machine crates).next state input)
      ((server.machine crates).outputs state input) := by
  cases input with
  | request req conn env =>
      simp only [Machine.next, Machine.outputs, machine, step]
      split
      · exact .answered notFound rfl rfl (by decide)
      · next proxy route =>
          split
          · next response flow =>
              exact .answered response rfl rfl (RouteProxy.handleChecked_plain flow)
          · next client out task flow => exact .left proxy client out task route flow rfl rfl
  | reply id result env =>
      simp only [Machine.next, Machine.outputs, machine, step]
      split
      · exact .ignored
      · next key task there =>
          split
          · exact .ignored
          · next proxy route => exact .resumed key task proxy there rfl rfl
  | drop id => exact .dropped rfl rfl

/-! ## Where handlers come from -/

/-- A request of a run has left a handler and sent a request of its own. -/
def LeftBy (start : State) (inputs : List Input) (id : Nat) (key : Str) (task : Task) : Prop :=
  ∃ before req conn env after client out, ∃ proxy : RouteProxy,
    inputs = before ++ .request req conn env :: after ∧
    ((server.machine crates).run start before).nextTask = id ∧ hostKey req = key ∧
    (proxy.handleChecked crates (((server.machine crates).run start before).world key) env req
      conn).flow = .send client out task ∧
    (server.machine crates).outputs ((server.machine crates).run start before)
      (.request req conn env) = [.sent key client out]

/-- A handler that waits in a run was left by a request of the run. -/
theorem leftBy_run {start : State} (empty : ∀ id, start.tasks id = none) (inputs : List Input)
    {id : Nat} {key : Str} {task : Task}
    (waits : ((server.machine crates).run start inputs).tasks id = some (key, task)) :
    LeftBy crates server start inputs id key task := by
  induction inputs using List.reverseRecOn with
  | nil =>
      rw [Machine.run_nil, empty] at waits
      cases waits
  | append_singleton inputs input ih =>
      -- A handler that was there before.
      have later (earlier :
          ((server.machine crates).run start inputs).tasks id = some (key, task)) :
          LeftBy crates server start (inputs ++ [input]) id key task := by
        obtain ⟨before, req, conn, env, after, client, out, proxy, rfl, rest⟩ := ih earlier
        exact ⟨before, req, conn, env, after ++ [input], client, out, proxy, by simp, rest⟩
      have removed {gone : Nat} (found : Function.update
          ((server.machine crates).run start inputs).tasks gone none id = some (key, task)) :
          ((server.machine crates).run start inputs).tasks id = some (key, task) := by
        by_cases same : id = gone
        · rw [same, Function.update_self] at found
          cases found
        · rwa [Function.update_of_ne same] at found
      rw [Machine.run_append] at waits
      change ((server.machine crates).next ((server.machine crates).run start inputs)
        input).tasks id = _ at waits
      have step := server.exchange crates ((server.machine crates).run start inputs) input
      generalize after_eq : (server.machine crates).next
        ((server.machine crates).run start inputs) input = after at step waits
      generalize sent : (server.machine crates).outputs
        ((server.machine crates).run start inputs) input = outputs at step
      cases step with
      | answered response tasks => exact later (tasks ▸ waits)
      | ignored => exact later waits
      | resumed key task proxy there tasks => exact later (removed (tasks ▸ waits))
      | dropped tasks => exact later (removed (tasks ▸ waits))
      | @left req conn env next proxy client out task' route flow tasks number =>
          by_cases same : id = ((server.machine crates).run start inputs).nextTask
          · rw [tasks, same, Function.update_self, Option.some.injEq, Prod.mk.injEq] at waits
            obtain ⟨rfl, rfl⟩ := waits
            exact ⟨inputs, req, conn, env, [], client, out, proxy, rfl, same.symm, rfl, flow,
              sent⟩
          · rw [tasks, Function.update_of_ne same] at waits
            exact later waits

/-- Protocols are switched by agreement.  If a client is told to switch protocols, its handler
was left by a request of the run, the upstream has said so, and, unless that is a request for
a resource, the client had asked for the protocol, the upstream was asked for it over HTTP/1.1,
and it answered with the same protocol. -/
theorem protocol_switches (cfg : Config) (auth : Option Store) (disk : Disk)
    (inputs : List Input) (input : Input) {response : Response}
    (answered : .answered response ∈ (server.machine crates).outputs
      ((server.machine crates).run (Server.initial cfg auth disk) inputs) input)
    (switches : response.status = 101) :
    let run := (server.machine crates).run (Server.initial cfg auth disk)
    ∃ before req conn env after client out reply env',
      inputs = before ++ .request req conn env :: after ∧
      (server.machine crates).outputs (run before) (.request req conn env) =
        [.sent (hostKey req) client out] ∧
      input = .reply (run before).nextTask (.reply reply) env' ∧ reply.status = 101 ∧
      (resourcePrefix.isPrefixOf req.path = true ∨
        ∃ requested offered, RouteProxy.AsksUpgrade req requested client out ∧
          upgradeType reply.headers = some offered ∧
          eqIgnoreAsciiCaseBytes offered requested = true) := by
  intro run
  have step := server.exchange crates (run inputs) input
  generalize (server.machine crates).next (run inputs) input = next at step
  generalize outputs_eq : (server.machine crates).outputs (run inputs) input = outputs at step
  change .answered response ∈ (server.machine crates).outputs (run inputs) input at answered
  rw [outputs_eq] at answered
  cases step with
  | answered plain tasks number differs =>
      obtain rfl : response = plain := by simpa using answered
      exact absurd switches differs
  | left proxy client out task => simp at answered
  | ignored => simp at answered
  | dropped => simp at answered
  | @resumed id result env' next key task proxy there =>
      obtain rfl : response = (proxy.resume crates ((run inputs).world key) env' task
          result).response := by
        simpa using answered
      obtain ⟨before, req, conn, env, after, client, out, origin, rfl, number, rfl, flow, sent⟩ :=
        leftBy_run crates server (fun _ => rfl) inputs there
      have kinds := RouteProxy.handleChecked_sent crates origin flow
      split at kinds
      · next inside =>
          obtain ⟨_, -, -, -, -, -, -, rfl⟩ :=
            (RouteProxy.proxyResource_eq_send crates origin).mp kinds
          cases result with
          | timeout => exact absurd switches (by decide : (504 : Nat) ≠ 101)
          | error message => exact absurd switches (by decide : (502 : Nat) ≠ 101)
          | reply reply =>
              exact ⟨before, req, conn, env, after, client, out, reply, env', rfl, sent,
                by rw [number], switches, .inl inside⟩
      · next outside =>
          obtain ⟨logout, forwarded⟩ := kinds
          obtain ⟨upstream, rfl, asks⟩ := RouteProxy.proxyUpstream_upgrade forwarded
          obtain ⟨reply, requested, offered, rfl, status, asked, named, same⟩ :=
            RouteProxy.upstreamReply_switches switches
          exact ⟨before, req, conn, env, after, client, out, reply, env', rfl, sent,
            by rw [number], status, .inr ⟨requested, offered, asks requested asked, named, same⟩⟩

/-- A web socket. -/
theorem protocol_switches_websocket :
    let server := withStats Reference.crates (Reference.config [] []) none
    let start := Server.initial (Reference.config [] []) none fun _ => none
    let headers := [("connection", "keep-alive, Upgrade"), ("upgrade", "websocket")]
    let asks : Input :=
      .request (Reference.request .get "/embywebsocket" none headers) Reference.conn Reference.env
    ∃ before req conn env after client out, [asks] = before ++ .request req conn env :: after ∧
      (server.machine Reference.crates).outputs
          ((server.machine Reference.crates).run start before) (.request req conn env) =
        [.sent (hostKey req) client out] := by
  intro server start headers asks
  let offer : HeaderMap := ⟨[("connection".toList, encode "upgrade".toList),
    ("upgrade".toList, encode "WebSocket".toList)]⟩
  have answered : .answered ⟨101, offer, .empty⟩ ∈ (server.machine Reference.crates).outputs
      ((server.machine Reference.crates).run start [asks])
      (.reply 0 (.reply ⟨101, offer, []⟩) Reference.env) := by
    decide +kernel
  obtain ⟨before, req, conn, env, after, client, out, -, -, split, sent, -⟩ :=
    protocol_switches Reference.crates server (Reference.config [] []) none (fun _ => none) [asks]
      _ answered rfl
  exact ⟨before, req, conn, env, after, client, out, split, sent⟩

end Server

end Proxemby
