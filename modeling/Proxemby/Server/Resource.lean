import Proxemby.Server.Gate

/-!
# The resource endpoint

`/_proxy/` forwards to the host that its path names, when the route allows that host
and, with allowed users set, when the request is signed or carries a token.
-/

namespace Proxemby

open Text

theorem ResourceParts.target_eq (parts : ResourceParts) (query : Option Str) :
    parts.target query = parts.scheme ++ "://".toList ++ parts.host ++ '/' :: parts.rest ++
      queryText query := rfl

/-! ## Cutting the path -/

/-- A resource path: an optional signature, a scheme, a host and the rest. -/
structure ResourceParts.Cut (parts : ResourceParts) (auth : Bool) (path : Str) : Prop where
  whole : path.drop resourcePrefix.length =
    (if isHttpScheme parts.first then [] else parts.first ++ ['/']) ++
      (parts.scheme ++ '/' :: (parts.host ++ '/' :: parts.rest))
  scheme : isHttpScheme parts.scheme = true
  first : isHttpScheme parts.first = true → parts.first = parts.scheme
  signed : isHttpScheme parts.first = false → auth = true
  firstSegment : '/' ∉ parts.first
  hostSegment : '/' ∉ parts.host
  host : parts.host ≠ []

theorem noSlash_of_isHttpScheme {scheme : Str} (http : isHttpScheme scheme = true) :
    '/' ∉ scheme := by
  simp only [isHttpScheme, Bool.or_eq_true, decide_eq_true_eq] at http
  rcases http with rfl | rfl <;> decide

theorem splitFirstSegment_append {first : Str} (fresh : '/' ∉ first) (rest : Str) :
    splitFirstSegment (first ++ '/' :: rest) = (first, some rest) := by
  rw [splitFirstSegment, splitOnce_append fresh]

theorem splitFirstSegment_some {path first rest : Str}
    (split : splitFirstSegment path = (first, some rest)) :
    '/' ∉ first ∧ path = first ++ '/' :: rest := by
  rw [splitFirstSegment] at split
  cases cut : splitOnce '/' path with
  | none => simp [cut] at split
  | some halves =>
      simp only [cut, Prod.mk.injEq, Option.some.injEq] at split
      obtain ⟨rfl, rfl⟩ := split
      exact splitOnce_eq_some.mp cut

/-- `proxy_resource` finds the parts that a path is made of. -/
theorem resourceParts_of_cut {auth : Bool} {path : Str} {parts : ResourceParts}
    (cut : parts.Cut auth path) : resourceParts auth path = .ok parts := by
  obtain ⟨whole, http, same, signed, fresh, hostFresh, named⟩ := cut
  obtain ⟨first, scheme, host, rest⟩ := parts
  dsimp only at *
  have schemeFresh := noSlash_of_isHttpScheme http
  cases unsigned : isHttpScheme first with
  | true =>
      obtain rfl := same unsigned
      rw [unsigned, if_pos rfl, List.nil_append] at whole
      simp [resourceParts, whole, splitFirstSegment_append schemeFresh, unsigned, splitHost,
        splitOnce_append hostFresh, named]
  | false =>
      obtain rfl := signed unsigned
      rw [unsigned, if_neg (by simp), List.append_assoc, List.singleton_append] at whole
      simp [resourceParts, whole, splitFirstSegment_append fresh, unsigned,
        splitFirstSegment_append schemeFresh, http, splitHost, splitOnce_append hostFresh, named]

/-- The parts that `proxy_resource` finds make up the path. -/
theorem cut_of_resourceParts {auth : Bool} {path : Str} {parts : ResourceParts}
    (found : resourceParts auth path = .ok parts) : parts.Cut auth path := by
  rw [resourceParts] at found
  obtain ⟨first, remainder, split⟩ : ∃ first remainder,
      splitFirstSegment (path.drop resourcePrefix.length) = (first, remainder) := ⟨_, _, rfl⟩
  rw [split] at found
  dsimp only at found
  -- A scheme and what follows it, with the first segment in front or the same.
  have segments : ∃ scheme remainder', isHttpScheme scheme = true ∧
      path.drop resourcePrefix.length =
        (if isHttpScheme first then [] else first ++ ['/']) ++ (scheme ++ '/' :: remainder') ∧
      (isHttpScheme first = true → first = scheme) ∧
      (isHttpScheme first = false → auth = true) ∧ '/' ∉ first ∧
      splitHost first scheme remainder' = .ok parts := by
    cases unsigned : isHttpScheme first with
    | true =>
        cases remainder with
        | none => simp [unsigned] at found
        | some rest =>
            obtain ⟨fresh, whole⟩ := splitFirstSegment_some split
            refine ⟨first, rest, unsigned, by simpa using whole, by simp, by simp, fresh, ?_⟩
            simpa [unsigned] using found
    | false =>
        cases remainder with
        | none => simp [unsigned] at found
        | some rest =>
            cases auth with
            | false => simp [unsigned] at found
            | true =>
                obtain ⟨fresh, whole⟩ := splitFirstSegment_some split
                obtain ⟨scheme, remainder', split'⟩ : ∃ scheme remainder',
                    splitFirstSegment rest = (scheme, remainder') := ⟨_, _, rfl⟩
                simp only [unsigned, Bool.not_false, Bool.and_self, split'] at found
                cases http : isHttpScheme scheme with
                | false => simp [http] at found
                | true =>
                    cases remainder' with
                    | none => simp [http] at found
                    | some tail =>
                        obtain ⟨-, whole'⟩ := splitFirstSegment_some split'
                        refine ⟨scheme, tail, http, ?_, by simp, by simp, fresh, ?_⟩
                        · simp [whole, whole']
                        · simpa [http] using found
  obtain ⟨scheme, remainder', http, whole, same, signed, fresh, host⟩ := segments
  rw [splitHost] at host
  cases cut : splitOnce '/' remainder' with
  | none => simp [cut] at host
  | some halves =>
      obtain ⟨name, rest⟩ := halves
      obtain ⟨hostFresh, remainder_eq⟩ := splitOnce_eq_some.mp cut
      simp only [cut, ne_eq, ite_not] at host
      split at host
      · cases host
      · next named =>
          cases host
          exact ⟨by rw [whole, remainder_eq], http, same, signed, fresh, hostFresh, named⟩

theorem resourceParts_eq_ok {auth : Bool} {path : Str} {parts : ResourceParts} :
    resourceParts auth path = .ok parts ↔ parts.Cut auth path :=
  ⟨cut_of_resourceParts, resourceParts_of_cut⟩

namespace RouteProxy

variable (crates : Crates) (proxy : RouteProxy)

/-- `proxy_resource` forwards exactly what passes its checks. -/
theorem proxyResource_eq_send {world : World} {req : Request} {client : Client}
    {out : OutRequest} {task : Task} :
    proxy.proxyResource crates world req = .send client out task ↔
      ∃ parts, resourceParts world.auth.isSome req.path = .ok parts ∧
        proxy.resourceAuthorized crates world.auth req parts = true ∧
        world.registry.Allows parts.host ∧
        (crates.parseUri (parts.target req.query)).isSome = true ∧
        client = .default ∧
        out = { method := req.method, uri := parts.target req.query,
                headers := prepareOutboundHeaders req.headers none } ∧
        task = .resource req := by
  rw [proxyResource]
  cases cut : resourceParts world.auth.isSome req.path with
  | error msg => simp
  | ok parts =>
      simp only [Except.ok.injEq, exists_eq_left']
      cases authorized : proxy.resourceAuthorized crates world.auth req parts with
      | false => simp
      | true =>
          cases host : world.registry.lookup parts.host with
          | none => simp [Registry.Allows, host]
          | some scheme =>
              cases uri : crates.parseUri (parts.target req.query) with
              | none => simp
              | some path =>
                  simp [Registry.Allows, host, eq_comm]

/-- With allowed users, a resource needs a signature for this route, scheme and host,
or no signature and a token with a session on this route. -/
theorem resourceAuthorized_some {store : Store} {req : Request} {parts : ResourceParts}
    (authorized : proxy.resourceAuthorized crates (some store) req parts = true) :
    (isHttpScheme parts.first = false ∧
      store.verify crates.toStoreCrates parts.first
        [proxy.routeKey, parts.scheme, parts.host] = true) ∨
    (isHttpScheme parts.first = true ∧ ∃ token session,
      requestToken req.headers req.query = some token ∧
      store.sessions.lookup token = some session ∧ session.route = proxy.routeKey) := by
  simp only [resourceAuthorized] at authorized
  split at authorized
  · next unsigned =>
      obtain ⟨named, session, found, route⟩ := Store.isValid_iff.mp authorized
      refine .inr ⟨unsigned, ?_⟩
      cases sent : requestToken req.headers req.query with
      | none => simp [sent] at named
      | some token =>
          rw [sent, Option.getD_some] at found
          exact ⟨token, session, rfl, found, route⟩
  · next signed => exact .inl ⟨by simpa using signed, authorized⟩

/-- Inside `/_proxy/` only `proxy_resource` sends requests. -/
theorem proxyResource_of_sent {world : World} {env : Env} {req : Request} {conn : ConnInfo}
    {client : Client} {out : OutRequest} {task : Task}
    (inside : resourcePrefix.isPrefixOf req.path = true)
    (sent : (proxy.handleChecked crates world env req conn).flow = .send client out task) :
    proxy.proxyResource crates world req = .send client out task := by
  rw [handleChecked] at sent
  split at sent
  · cases sent
  · split at sent
    · simpa [handleWithAuth, inside] using sent
    · simpa [routeRequest, inside] using sent

end RouteProxy

namespace Server

variable (crates : Crates)

/-- Soundness of the resource endpoint, in the state after any run: whatever is sent for
a request to `/_proxy/` goes to the scheme and host that the path spells out, and the
host is configured, or was in a URL that an earlier answer of the same route made the
rewriter rewrite.  With allowed users set, the request also is signed for this route,
scheme and host, or is unsigned and has a token with a session on this route. -/
theorem resource_sound {cfg : Config} {disk disk' : Disk} {env : Env} {server : Server}
    {start : State} (booted : boot crates cfg disk env = (disk', .ok (server, start)))
    (inputs : List Input) {req : Request} {conn : ConnInfo} {env' : Env} {key : Str}
    {client : Client} {out : OutRequest}
    (inside : resourcePrefix.isPrefixOf req.path = true)
    (sent : Output.sent key client out ∈ (server.machine crates).outputs
      ((server.machine crates).run start inputs) (.request req conn env')) :
    ∃ (proxy : RouteProxy) (parts : ResourceParts),
      server.routes.lookup key = some proxy ∧ key = hostKey req ∧
      req.path = resourcePrefix ++
        (if isHttpScheme parts.first then [] else parts.first ++ ['/']) ++
          (parts.scheme ++ '/' :: (parts.host ++ '/' :: parts.rest)) ∧
      '/' ∉ parts.host ∧ parts.host ≠ [] ∧
      (parts.scheme = "http".toList ∨ parts.scheme = "https".toList) ∧
      out.uri = parts.scheme ++ "://".toList ++ parts.host ++ '/' :: parts.rest ++
        queryText req.query ∧
      (parts.host ∈ cfg.allowedHosts ∨
        ∃ before input later, inputs = before ++ input :: later ∧
          server.LearnsHost crates ((server.machine crates).run start before) key parts.host
            input) ∧
      (cfg.allowedUsers ≠ [] →
        ∃ store, ((server.machine crates).run start inputs).auth = some store ∧
          ((isHttpScheme parts.first = false ∧
              store.verify crates.toStoreCrates parts.first
                [proxy.routeKey, parts.scheme, parts.host] = true) ∨
            (isHttpScheme parts.first = true ∧ ∃ token session,
              requestToken req.headers req.query = some token ∧
              store.sessions.lookup token = some session ∧
              session.route = proxy.routeKey))) := by
  obtain ⟨proxy, task, route, rfl, flow⟩ := sent_of_request crates server sent
  have forwarded := proxy.proxyResource_of_sent crates inside flow
  obtain ⟨parts, found, authorized, allows, -, -, rfl, -⟩ :=
    (proxy.proxyResource_eq_send crates).mp forwarded
  have cut := cut_of_resourceParts found
  refine ⟨proxy, parts, route, rfl, ?_, cut.hostSegment, cut.host, ?_, rfl, ?_, ?_⟩
  · rw [List.append_assoc, ← cut.whole]
    exact (List.prefix_iff_eq_append.mp (List.isPrefixOf_iff_prefix.mp inside)).symm
  · simpa [isHttpScheme] using cut.scheme
  · rcases run_allows crates server allows with first | learned
    · left
      obtain ⟨auth, -, -, rfl⟩ := boot_spec booted
      exact ((Registry.allows_new cfg.allowedHosts parts.host).mp first).1
    · exact .inr learned
  · intro users
    obtain ⟨store, auth⟩ :=
      Option.isSome_iff_exists.mp ((run_auth_isSome crates booted inputs).mpr users)
    refine ⟨store, auth, ?_⟩
    simp only [State.world, auth] at authorized
    exact proxy.resourceAuthorized_some crates authorized

/-- A signed URL on a configured host. -/
theorem resource_sound_signed :
    ∃ parts : ResourceParts,
      "/_proxy/9v9k6nr-3M8Yf8oREu-yhQ/https/cdn.example.com/movie.mkv".toList =
        resourcePrefix ++ (if isHttpScheme parts.first then [] else parts.first ++ ['/']) ++
          (parts.scheme ++ '/' :: (parts.host ++ '/' :: parts.rest)) ∧
      parts.host = "cdn.example.com".toList := by
  have sent : Output.sent "proxemby".toList .default
      ⟨.get, "https://cdn.example.com/movie.mkv".toList, ⟨[]⟩⟩ ∈
      ((Reference.server (Reference.config ["ken"] ["cdn.example.com"])).machine
        Reference.crates).outputs
        (((Reference.server (Reference.config ["ken"] ["cdn.example.com"])).machine
          Reference.crates).run
            (Reference.start (Reference.config ["ken"] ["cdn.example.com"])) [])
        (.request Reference.signedRequest Reference.conn Reference.env) := by
    decide +kernel
  obtain ⟨proxy, parts, -, -, path, -, -, -, -, host, -⟩ := resource_sound Reference.crates
    (@Reference.boot_eq (Reference.config ["ken"] ["cdn.example.com"]) (by decide) rfl)
    [] (by decide +kernel) sent
  refine ⟨parts, path, ?_⟩
  rcases host with configured | ⟨before, input, later, split, -⟩
  · exact List.mem_singleton.mp configured
  · simp at split

end Server

end Proxemby
