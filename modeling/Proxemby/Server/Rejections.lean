import Proxemby.Server.Completion
import Proxemby.Server.Ledger

/-!
# Rejected clients

`filter_client` of `src/server/route.rs`: requests of clients outside the allowed networks are
answered at once and logged.  They count as requests, and their answers as traffic, but nothing
else that the server keeps knows of them.
-/

namespace Proxemby

open Text

/-! ## The record of a decision -/

section Keys

open Logging

def keyAllowed : Key := ⟨"allowed".toList, by decide⟩
def keyReason : Key := ⟨"reason".toList, by decide⟩
def keySource : Key := ⟨"source".toList, by decide⟩
def keyTrustProxyHeaders : Key := ⟨"trust_proxy_headers".toList, by decide⟩
def keyRemote : Key := ⟨"remote".toList, by decide⟩
def keyForwardedFor : Key := ⟨"x_forwarded_for".toList, by decide⟩
def keyRealIp : Key := ⟨"x_real_ip".toList, by decide⟩

/-- Where `client_addr` takes the address from. -/
def clientSource (ip : IpText) (headers : HeaderMap) (trustProxyHeaders : Bool) : Str :=
  let forwarded :=
    ((headerStr headers "x-forwarded-for").map firstForwardedFor).bind (parseClientAddr ip)
  let realIp := (headerStr headers "x-real-ip").bind (parseClientAddr ip)
  if trustProxyHeaders then
    if forwarded.isSome then "x_forwarded_for".toList
    else if realIp.isSome then "x_real_ip".toList
    else "remote_addr".toList
  else "remote_addr".toList

/-- The call that logs what the client filter decides.  `remote` is the address of the
connection with its port. -/
def RouteProxy.filterCall (proxy : RouteProxy) (crates : Crates) (req : Request) (conn : ConnInfo)
    (remote : Str) (loggerAttrs : Attrs) (now : Int) : LogCall :=
  let addr := clientAddr crates.ip req.headers conn proxy.cfg.trustProxyHeaders
  let allowed := isAllowed proxy.cfg.allowedClients addr
  { loggerAttrs
    now
    level := if allowed then .debug else .warn
    msg :=
      if allowed then "client filter decision".toList
      else "client filter rejected request".toList
    attrs := [(keyAllowed, .bool allowed),
      (keyReason, .str (if allowed then [] else "client_ip_not_allowed".toList)),
      (keyClient, .str (crates.ip.display addr)),
      (keySource, .str (clientSource crates.ip req.headers proxy.cfg.trustProxyHeaders)),
      (keyTrustProxyHeaders, .bool proxy.cfg.trustProxyHeaders),
      (keyPath, .str (sanitizeRequestUri req.path req.query)), (keyRemote, .str remote),
      (keyForwardedFor, .str ((headerStr req.headers "x-forwarded-for").getD [])),
      (keyRealIp, .str ((headerStr req.headers "x-real-ip").getD []))] }

end Keys

/-! ## The server -/

def rejection : Response := textResponse 403 "client IP is not allowed"

namespace Server

variable (crates : Crates) (server : Server)

/-- The client filter lets an input through. -/
def admits : Input → Bool
  | .request req conn _ =>
      match server.routes.lookup (hostKey req) with
      | some proxy => !proxy.filterClient crates req conn
      | none => true
  | _ => true

theorem filtered_of_rejected {req : Request} {conn : ConnInfo} {env : Env}
    (rejected : server.admits crates (.request req conn env) = false) :
    ∃ proxy, server.routes.lookup (hostKey req) = some proxy ∧
      proxy.filterClient crates req conn = true := by
  simp only [admits] at rejected
  split at rejected
  · next proxy route => exact ⟨proxy, route, by simpa using rejected⟩
  · cases rejected

theorem step_of_rejected {req : Request} {conn : ConnInfo} {env : Env}
    (rejected : server.admits crates (.request req conn env) = false) (state : State) :
    server.step crates state (.request req conn env) = (state, [.answered rejection]) := by
  obtain ⟨proxy, route, filtered⟩ := server.filtered_of_rejected crates rejected
  have outcome : proxy.handleChecked crates (state.world (hostKey req)) env req conn =
      ⟨state.world (hostKey req), .answer rejection⟩ := by
    rw [RouteProxy.handleChecked, if_pos filtered, rejection]
  simp only [step, route, outcome, State.withWorld_world]

theorem next_of_rejected {input : Input} (rejected : server.admits crates input = false)
    (state : State) : (server.machine crates).next state input = state := by
  cases input with
  | request req conn env =>
      exact congrArg Prod.fst (server.step_of_rejected crates rejected state)
  | reply | drop => cases rejected

/-- The warning about a rejected request can be read back from the log. -/
theorem warns_of_rejected {req : Request} {conn : ConnInfo} {env : Env}
    (rejected : server.admits crates (.request req conn env) = false) {config : Logging.Config}
    (level : config.level ≠ .error) (remote : Str) (loggerAttrs : Logging.Attrs) (now : Int) :
    ∃ proxy line, server.routes.lookup (hostKey req) = some proxy ∧
      let call := proxy.filterCall crates req conn remote loggerAttrs now
      call.level = .warn ∧ call.record config = some (line ++ ['\n']) ∧ '\n' ∉ line ∧
        call.Tells config line := by
  obtain ⟨proxy, route, filtered⟩ := server.filtered_of_rejected crates rejected
  have denied : isAllowed proxy.cfg.allowedClients
      (clientAddr crates.ip req.headers conn proxy.cfg.trustProxyHeaders) = false := by
    simp only [RouteProxy.filterClient, Bool.and_eq_true, Bool.not_eq_true'] at filtered
    exact filtered.2
  have warns : (proxy.filterCall crates req conn remote loggerAttrs now).level = .warn := by
    simp [RouteProxy.filterCall, denied]
  obtain ⟨line, record⟩ := @Logging.LogCall.exists_line_of_enabled
    (proxy.filterCall crates req conn remote loggerAttrs now) config (by
      rw [warns]
      cases below : config.level <;> first | decide | exact absurd below level)
  exact ⟨proxy, line, route, warns, record⟩

end Server

namespace Traffic

variable {routes : List Str} (setup : Setup routes)

/-- What a rejected request comes to: the request itself, and the octets of its answer. -/
def rejectedTraffic (asked : Served (Pair routes)) (pair : Pair routes) : Field → Nat
  | .requests => if asked.counters = some pair then 1 else 0
  | .bytesOut => if asked.counters = some pair then 25 else 0
  | .bytesIn => 0

end Traffic

end Proxemby
