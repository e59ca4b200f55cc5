import Proxemby.Server.Outbound

/-!
# Hiding the client

With `hide_client` set, what two requests differ in when only the identity of the client
does.  `proxy_upstream` leaves out every header with the identity, while `proxy_resource`
never looks at the option and leaves out some of them only.
-/

namespace Proxemby

open Text

/-- Two requests that differ in the headers that name the client at most. -/
structure Request.SameButIdentity (req req' : Request) : Prop where
  method : req.method = req'.method
  authority : req.authority = req'.authority
  path : req.path = req'.path
  query : req.query = req'.query
  headers : ∀ name ∉ identityHeaders, req.headers.getAll name = req'.headers.getAll name

/-- Two requests that say the same to their upstream. -/
structure OutRequest.Same (out out' : OutRequest) : Prop where
  method : out.method = out'.method
  uri : out.uri = out'.uri
  headers : ∀ name, out.headers.getAll name = out'.headers.getAll name

/-- No header of a forwarded request names the client. -/
def OutRequest.Hidden (out : OutRequest) : Prop :=
  ∀ name ∈ identityHeaders, out.headers.getAll name = []

/-- The client is named in no header, or in one that goes anyway: a forwarding header, or one
that `Connection` lists. -/
def Unnamed (headers : HeaderMap) : Prop :=
  ∀ name ∈ identityHeaders, headers.getAll name = [] ∨ name ∈ forwardingHeaders ∨
    name ∈ readNames headers

/-! ## What other headers depend on -/

section Same

variable {req req' : Request}

theorem headerTokens_congr {headers headers' : HeaderMap} {name : Str}
    (same : headers.getAll name = headers'.getAll name) :
    headerTokens headers name = headerTokens headers' name := by
  rw [headerTokens, same, headerTokens]

theorem readNames_congr {headers headers' : HeaderMap}
    (same : headers.getAll "connection".toList = headers'.getAll "connection".toList) :
    readNames headers = readNames headers' := by
  rw [readNames, headerTokens_congr same, readNames]

theorem Request.SameButIdentity.upgradeType (same : req.SameButIdentity req') :
    upgradeType req.headers = upgradeType req'.headers := by
  rw [Proxemby.upgradeType, Proxemby.upgradeType, headerValuesContainToken,
    headerValuesContainToken, headerTokens_congr (same.headers _ (by decide)), HeaderMap.get,
    HeaderMap.get, same.headers _ (by decide)]

theorem Request.SameButIdentity.putBack (same : req.SameButIdentity req')
    (upgrade : Option HeaderValue) (name : Str) :
    putBack req.headers upgrade name = putBack req'.headers upgrade name := by
  rw [Proxemby.putBack, Proxemby.putBack, headerValuesContainToken, headerValuesContainToken,
    headerTokens_congr (same.headers _ (by decide))]

/-- The values under a name that does not name the client are the same. -/
theorem Request.SameButIdentity.forwardedValues (same : req.SameButIdentity req')
    (own : Str → List HeaderValue) (upgrade : Option HeaderValue) (dropped : List Str)
    {name : Str} (other : name ∉ identityHeaders) :
    forwardedValues req.headers own upgrade dropped name =
      forwardedValues req'.headers own upgrade dropped name := by
  rw [Proxemby.forwardedValues, Proxemby.forwardedValues, same.putBack, same.headers _ other,
    readNames_congr (same.headers _ (by decide))]

end Same

/-- Requests without the identity of a client are the same when their other headers are. -/
theorem OutRequest.same_of_hidden {out out' : OutRequest} (method : out.method = out'.method)
    (uri : out.uri = out'.uri) (hidden : out.Hidden) (hidden' : out'.Hidden)
    (others : ∀ name ∉ identityHeaders, out.headers.getAll name = out'.headers.getAll name) :
    out.Same out' := by
  refine ⟨method, uri, ?_⟩
  intro name
  by_cases identity : name ∈ identityHeaders
  · rw [hidden name identity, hidden' name identity]
  · exact others name identity

namespace RouteProxy

variable (crates : Crates) (proxy : RouteProxy)

/-! ## The two ways to forward -/

/-- A request for a resource hides the client just when its own headers do. -/
theorem proxyResource_hidden {world : World} {req : Request} {client : Client}
    {out : OutRequest} {task : Task}
    (sent : proxy.proxyResource crates world req = .send client out task) :
    out.Hidden ↔ Unnamed req.headers := by
  have values := proxy.getAll_proxyResource crates sent
  have apart : ∀ name ∈ identityHeaders, name ≠ "host".toList ∧ name ∉ hopByHop := by decide
  apply forall₂_congr
  intro name identity
  obtain ⟨host, hop⟩ := apart name identity
  rw [values, forwardedValues, if_neg host]
  by_cases forwarding : name ∈ forwardingHeaders
  · simp only [forwarding, if_true, true_or, or_true]
  · rw [if_neg forwarding, if_neg hop]
    by_cases read : name ∈ readNames req.headers
    · simp only [read, true_or, if_true, or_true]
    · simp only [read, forwarding, List.not_mem_nil, or_false, if_false]

/-- A request to the upstream hides the client. -/
theorem proxyUpstream_hidden (hide : proxy.cfg.hideClient = true) {auth : Option Store}
    {req : Request} {conn : ConnInfo} {logout : Option Str} {client : Client} {out : OutRequest}
    {task : Task} (sent : proxy.proxyUpstream crates auth req conn logout = .send client out task) :
    out.Hidden := by
  intro name identity
  have apart : ∀ name ∈ identityHeaders, name ∉ hopByHop := by decide
  have dropped : name ∈ proxy.droppedHeaders auth req := by
    rw [droppedHeaders, if_pos hide]
    exact List.mem_append_left _ identity
  rw [proxy.getAll_proxyUpstream crates sent, forwardedValues]
  split
  · rfl
  · split
    · rw [ownForwarding, if_pos hide]
    · rw [if_neg (apart name identity), if_pos (.inr dropped)]

/-- What a request to the upstream has besides its headers. -/
theorem proxyUpstream_out {auth : Option Store} {req : Request} {conn : ConnInfo}
    {logout : Option Str} {client : Client} {out : OutRequest} {task : Task}
    (sent : proxy.proxyUpstream crates auth req conn logout = .send client out task) :
    client = (if (upgradeType req.headers).isSome then .http1 else .default) ∧
      out.method = req.method ∧ out.uri = proxy.upstreamTarget req := by
  rw [proxyUpstream] at sent
  split at sent
  · cases sent
  · cases sent
    exact ⟨rfl, rfl, rfl⟩

/-- A handler forwards requests inside `/_proxy/` to resources and others to the upstream. -/
theorem handleChecked_sent {world : World} {env : Env} {req : Request} {conn : ConnInfo}
    {client : Client} {out : OutRequest} {task : Task}
    (sent : (proxy.handleChecked crates world env req conn).flow = .send client out task) :
    if resourcePrefix.isPrefixOf req.path then
      proxy.proxyResource crates world req = .send client out task
    else
      ∃ logout, proxy.proxyUpstream crates world.auth req conn logout = .send client out task := by
  split
  · next inside => exact proxy.proxyResource_of_sent crates inside sent
  · next outside =>
      rw [handleChecked] at sent
      split at sent
      · cases sent
      · split at sent
        · simp only [handleWithAuth, outside, Bool.false_eq_true, ↓reduceIte] at sent
          split at sent
          · cases sent
          · split at sent
            · exact ⟨none, sent⟩
            · split at sent
              · cases sent
              · split at sent
                · split at sent
                  · cases sent
                  · next forwarded =>
                      cases sent
                      exact ⟨_, forwarded⟩
                · cases sent
        · simp only [routeRequest, outside, Bool.false_eq_true, ↓reduceIte] at sent
          exact ⟨none, sent⟩

/-- Of two forwarded requests that differ in the identity of the client, nothing of it gets
out, and the upstream sees the same request, just when they are no requests for a resource or
no header of theirs that is passed on names the client. -/
theorem hidden_client_iff (hide : proxy.cfg.hideClient = true) {world : World} {env env' : Env}
    {req req' : Request} {conn conn' : ConnInfo} (same : req.SameButIdentity req')
    {client client' : Client} {out out' : OutRequest} {task task' : Task}
    (sent : (proxy.handleChecked crates world env req conn).flow = .send client out task)
    (sent' : (proxy.handleChecked crates world env' req' conn').flow =
      .send client' out' task') :
    (out.Hidden ∧ out'.Hidden ∧ client = client' ∧ out.Same out') ↔
      (resourcePrefix.isPrefixOf req.path = true →
        Unnamed req.headers ∧ Unnamed req'.headers) := by
  have way := proxy.handleChecked_sent crates sent
  have way' := proxy.handleChecked_sent crates sent'
  rw [← same.path] at way'
  by_cases inside : resourcePrefix.isPrefixOf req.path = true
  · rw [if_pos inside] at way way'
    rw [← proxy.proxyResource_hidden crates way, ← proxy.proxyResource_hidden crates way']
    constructor
    · rintro ⟨hidden, hidden', -, -⟩ -
      exact ⟨hidden, hidden'⟩
    · intro unnamed
      obtain ⟨hidden, hidden'⟩ := unnamed inside
      have values := proxy.getAll_proxyResource crates way
      have values' := proxy.getAll_proxyResource crates way'
      obtain ⟨parts, cut, -, -, -, rfl, rfl, -⟩ := (proxy.proxyResource_eq_send crates).mp way
      obtain ⟨parts', cut', -, -, -, rfl, rfl, -⟩ := (proxy.proxyResource_eq_send crates).mp way'
      rw [← same.path, cut, Except.ok.injEq] at cut'
      subst cut'
      refine ⟨hidden, hidden', rfl, OutRequest.same_of_hidden same.method ?_ hidden hidden' ?_⟩
      · rw [same.query]
      · intro name other
        rw [values, values', same.forwardedValues _ _ _ other]
  · rw [if_neg inside] at way way'
    obtain ⟨logout, way⟩ := way
    obtain ⟨logout', way'⟩ := way'
    refine iff_of_true ?_ fun within => absurd within inside
    have hidden := proxy.proxyUpstream_hidden crates hide way
    have hidden' := proxy.proxyUpstream_hidden crates hide way'
    obtain ⟨client_eq, method, uri⟩ := proxy.proxyUpstream_out crates way
    obtain ⟨client_eq', method', uri'⟩ := proxy.proxyUpstream_out crates way'
    refine ⟨hidden, hidden', ?_, OutRequest.same_of_hidden ?_ ?_ hidden hidden' ?_⟩
    · rw [client_eq, client_eq', same.upgradeType]
    · rw [method, method', same.method]
    · rw [uri, uri', upstreamTarget, upstreamTarget, same.path, same.query]
    · intro name other
      have own : proxy.ownForwarding crates req conn = proxy.ownForwarding crates req' conn' := by
        funext name
        rw [ownForwarding, ownForwarding, if_pos hide, if_pos hide]
      have dropped : proxy.droppedHeaders world.auth req =
          proxy.droppedHeaders world.auth req' := by
        rw [droppedHeaders, droppedHeaders, same.path]
      rw [proxy.getAll_proxyUpstream crates way, proxy.getAll_proxyUpstream crates way', own,
        dropped, same.upgradeType, same.forwardedValues _ _ _ other]

/-- The route of the examples, when it hides its clients. -/
def discreet : RouteProxy :=
  new Reference.crates { Reference.config [] ["cdn.example.com"] with hideClient := true }
    Reference.route none

/-- What its handlers share before the first request. -/
def discreetWorld : World where
  auth := none
  disk := fun _ => none
  registry := Registry.new ["cdn.example.com".toList]

/-- The upstream does not learn the address that a client passes on. -/
theorem hidden_client_iff_upstream :
    let req := Reference.request .get "/emby/System/Info" none
    ∃ client out task, (discreet.handleChecked Reference.crates discreetWorld Reference.env
        (req [("x-real-ip", "203.0.113.7")]) Reference.conn).flow = .send client out task ∧
      out.Hidden := by
  intro req
  refine ⟨_, _, _, rfl, ?_⟩
  have same : (req [("x-real-ip", "203.0.113.7")]).SameButIdentity (req []) := by
    refine ⟨rfl, rfl, rfl, rfl, ?_⟩
    intro name other
    have skip (first last : Str × HeaderValue) (different : last.1 ≠ name) :
        HeaderMap.getAll ⟨[first, last]⟩ name = HeaderMap.getAll ⟨[first]⟩ name := by
      simp [HeaderMap.getAll, List.filterMap_cons, different]
    exact skip _ _ fun same => other (same ▸ by decide)
  exact ((@hidden_client_iff Reference.crates discreet rfl discreetWorld Reference.env
    Reference.env _ _ Reference.conn Reference.conn same _ _ _ _ _ _ rfl rfl).mpr
      (fun inside => absurd inside (by decide))).1

/-- The host of a resource learns it. -/
theorem resource_names_client :
    ∃ client out task, (discreet.handleChecked Reference.crates discreetWorld Reference.env
        (Reference.request .get "/_proxy/https/cdn.example.com/movie.mkv" none
          [("x-real-ip", "203.0.113.7")]) Reference.conn).flow = .send client out task ∧
      ¬out.Hidden := by
  refine ⟨_, _, _, rfl, ?_⟩
  intro hidden
  have gone := hidden "x-real-ip".toList (by decide)
  revert gone
  decide +kernel

end RouteProxy

end Proxemby
