import Proxemby.Logging.Sink
import Proxemby.Server.Handle
import Proxemby.Server.Resource
import Proxemby.Server.Routing

/-!
# The record of a request that is done

`handle` says in the log where a request has gone.  It cuts the target out of the path by
itself, before the request is forwarded.
-/

namespace Proxemby

open Text

/-! ## The record -/

section Keys

open Logging

def keyMethod : Key := ⟨"method".toList, by decide⟩
def keyPath : Key := ⟨"path".toList, by decide⟩
def keyStatus : Key := ⟨"status".toList, by decide⟩
def keyBytes : Key := ⟨"bytes".toList, by decide⟩
def keyDuration : Key := ⟨"duration".toList, by decide⟩
def keyClient : Key := ⟨"client".toList, by decide⟩
def keyTarget : Key := ⟨"target".toList, by decide⟩
def keyUserAgent : Key := ⟨"user_agent".toList, agentKey.chars⟩

def Method.text : Method → Str
  | .get => "GET".toList
  | .head => "HEAD".toList
  | .post => "POST".toList
  | .other name => name

/-- The call that logs a request. -/
def RequestLog.call (log : RequestLog) (ip : IpText) (loggerAttrs : Attrs) (now : Int)
    (bytes duration : Nat) : Logging.LogCall where
  loggerAttrs
  now
  level := .debug
  msg := "request completed".toList
  attrs := [(keyMethod, .str log.method.text), (keyPath, .str log.path),
    (keyStatus, .int log.status), (keyBytes, .int bytes), (keyDuration, .duration duration),
    (keyClient, .str (ip.display log.client)), (keyTarget, .str log.target),
    (keyUserAgent, .str log.userAgent)]

end Keys

/-! ## Where a request goes -/

/-- A scheme and a host with its port. -/
def origin (scheme host : Str) : Str := scheme ++ "://".toList ++ host

/-- A URL with this scheme and host. -/
structure HasOrigin (uri scheme host : Str) : Prop where
  http : isHttpScheme scheme = true
  named : host ≠ []
  segment : '/' ∉ host
  whole : ∃ rest, uri = origin scheme host ++ '/' :: rest

/-- A path behind an absolute one begins with a slash. -/
theorem joinPath_eq_cons {base : Str} (absolute : base = [] ∨ ∃ rest, base = '/' :: rest)
    (path : Str) : ∃ rest, joinPath base path = '/' :: rest := by
  rcases absolute with rfl | ⟨rest, rfl⟩
  · cases path with
    | nil => exact ⟨[], rfl⟩
    | cons c path =>
        by_cases slash : '/' = c
        · subst slash
          exact ⟨path, rfl⟩
        · have other : ['/'].isPrefixOf (c :: path) = false := by
            rw [List.isPrefixOf_cons_cons, beq_false_of_ne slash, Bool.false_and]
          refine ⟨c :: path, ?_⟩
          rw [joinPath, other]
          rfl
  · rw [joinPath]
    split <;> exact ⟨_, List.cons_append⟩

namespace RouteProxy

variable (crates : Crates) (proxy : RouteProxy)

/-- The upstream is that of the configuration. -/
theorem upstreamTarget_origin {raw name : Str}
    (parsed : parseRequiredUrl raw name = .ok proxy.route.upstreamUrl) (req : Request) :
    HasOrigin (proxy.upstreamTarget req) proxy.route.upstreamUrl.scheme
      proxy.route.upstreamUrl.host := by
  obtain ⟨found, scheme, host⟩ := parseRequiredUrl_ok parsed
  obtain ⟨segment, absolute⟩ := HttpUrl.parse_path found
  obtain ⟨rest, path⟩ := joinPath_eq_cons absolute req.path
  let query := joinQuery proxy.route.upstreamUrl.query (req.query.getD [])
  refine ⟨scheme, host, segment, rest ++ if query = [] then [] else '?' :: query, ?_⟩
  rw [upstreamTarget, path, origin]
  simp [query]

/-- `target_for_log` cuts a path like `proxy_resource`. -/
theorem targetForLog_of_cut {auth : Bool} {path : Str} {parts : ResourceParts}
    (inside : resourcePrefix.isPrefixOf path = true) (cut : parts.Cut auth path) :
    proxy.targetForLog path = "resource:".toList ++ origin parts.scheme parts.host := by
  have stripped : stripPrefix resourcePrefix path = some (path.drop resourcePrefix.length) :=
    if_pos inside
  have schemeFresh := noSlash_of_isHttpScheme cut.scheme
  have hostCut : splitOnce '/' (parts.host ++ '/' :: parts.rest) = some (parts.host, parts.rest) :=
    splitOnce_append cut.hostSegment parts.rest
  rw [targetForLog, stripped, cut.whole]
  cases unsigned : isHttpScheme parts.first with
  | true =>
      simp [splitOnce_append schemeFresh, cut.scheme, hostCut, origin]
  | false =>
      simp [splitOnce_append cut.firstSegment, unsigned, splitOnce_append schemeFresh, hostCut,
        origin]

theorem uri_proxyUpstream {auth : Option Store} {req : Request} {conn : ConnInfo}
    {logout : Option Str} {client : Client} {out : OutRequest} {task : Task}
    (sent : proxy.proxyUpstream crates auth req conn logout = .send client out task) :
    out.uri = proxy.upstreamTarget req := by
  unfold proxyUpstream at sent
  dsimp only at sent
  split at sent
  · cases sent
  · cases sent
    rfl

/-- Outside `/_proxy/` all goes to the upstream. -/
theorem uri_of_sent {world : World} {env : Env} {req : Request} {conn : ConnInfo}
    {client : Client} {out : OutRequest} {task : Task}
    (outside : resourcePrefix.isPrefixOf req.path = false)
    (sent : (proxy.handleChecked crates world env req conn).flow = .send client out task) :
    out.uri = proxy.upstreamTarget req := by
  rw [handleChecked] at sent
  split at sent
  · cases sent
  · split at sent
    · simp only [handleWithAuth, outside, Bool.false_eq_true, if_false] at sent
      split at sent
      · cases sent
      · split at sent
        · exact proxy.uri_proxyUpstream crates sent
        · split at sent
          · cases sent
          · split at sent
            · split at sent
              · cases sent
              · next logout client' out' task' upstream =>
                  cases sent
                  exact proxy.uri_proxyUpstream crates upstream
            · cases sent
    · simp only [routeRequest, outside, Bool.false_eq_true, if_false] at sent
      exact proxy.uri_proxyUpstream crates sent

/-- The target that the log is to have of a request. -/
def Names (path target scheme host : Str) : Prop :=
  if resourcePrefix.isPrefixOf path then target = "resource:".toList ++ origin scheme host
  else scheme = proxy.route.upstreamUrl.scheme ∧ host = proxy.route.upstreamUrl.host ∧
    target = "upstream:".toList ++ proxy.route.upstreamUrl.toStr

/-- The target in the log is the origin of the request that is sent. -/
theorem target_of_sent {raw name : Str}
    (parsed : parseRequiredUrl raw name = .ok proxy.route.upstreamUrl) {world : World} {env : Env}
    {req : Request} {conn : ConnInfo} {client : Client} {out : OutRequest} {task : Task}
    (sent : (proxy.handleChecked crates world env req conn).flow = .send client out task) :
    ∃ scheme host, HasOrigin out.uri scheme host ∧
      proxy.Names req.path (proxy.targetForLog req.path) scheme host := by
  cases inside : resourcePrefix.isPrefixOf req.path with
  | true =>
      obtain ⟨parts, found, -, -, -, -, rfl, -⟩ :=
        (proxy.proxyResource_eq_send crates).mp (proxy.proxyResource_of_sent crates inside sent)
      have cut := cut_of_resourceParts found
      refine ⟨parts.scheme, parts.host, ⟨cut.scheme, cut.host, cut.hostSegment,
        parts.rest ++ queryText req.query, ?_⟩, ?_⟩
      · rw [parts.target_eq, origin]
        simp
      · rw [Names, if_pos inside, proxy.targetForLog_of_cut inside cut]
  | false =>
      have stripped : stripPrefix resourcePrefix req.path = none := if_neg (by simp [inside])
      refine ⟨_, _, proxy.uri_of_sent crates inside sent ▸ proxy.upstreamTarget_origin parsed req,
        ?_⟩
      rw [Names, if_neg (by simp [inside])]
      exact ⟨rfl, rfl, by rw [targetForLog, stripped]⟩

theorem completion_of_sent {raw name : Str}
    (parsed : parseRequiredUrl raw name = .ok proxy.route.upstreamUrl) {world : World} {env : Env}
    {req : Request} {conn : ConnInfo} {client : Client} {out : OutRequest} {task : Task}
    (sent : (proxy.handleChecked crates world env req conn).flow = .send client out task)
    {config : Logging.Config} (debug : config.level = .debug) (loggerAttrs : Logging.Attrs)
    (now : Int) (status bytes duration : Nat) {κ : Type} (stats : Option (Kind → κ)) :
    ∃ log scheme host line, (proxy.serve crates true stats req conn).log = some log ∧
      HasOrigin out.uri scheme host ∧ proxy.Names req.path log.target scheme host ∧
      let call := RequestLog.call { log with status } crates.ip loggerAttrs now bytes duration
      call.record config = some (line ++ ['\n']) ∧ '\n' ∉ line ∧ call.Tells config line := by
  let log := proxy.requestLog crates req conn
  obtain ⟨scheme, host, hasOrigin, names⟩ := proxy.target_of_sent crates parsed sent
  obtain ⟨line, written, fresh, tells⟩ := @Logging.LogCall.exists_line_of_enabled
    (RequestLog.call { log with status } crates.ip loggerAttrs now bytes duration) config
    (by rw [debug]; exact le_rfl)
  exact ⟨log, scheme, host, line, rfl, hasOrigin, names, written, fresh, tells⟩

end RouteProxy

end Proxemby
