import Proxemby.Server.Routing

/-!
# Names of accepted routes

`parse_required_url` asks for a host as it is written, and routing, statistics and signatures
take the hostname, without port and brackets.  A host can be there and have no name.
-/

namespace Proxemby

open Text

/-- Hosts that are written down and have no hostname: a port alone, and brackets around
nothing. -/
inductive Nameless : Str → Prop where
  | port {port : Str} (last : ':' ∉ port) : Nameless (':' :: port)
  | brackets (rest : Str) : Nameless ('[' :: ']' :: rest)
  | bracket : Nameless ['[']

/-- A host without white space has no hostname when it is empty or nameless. -/
theorem hostname_eq_nil_iff {host : Str} (clean : ∀ c ∈ host, isWhitespace c = false) :
    hostname host = [] ↔ host = [] ∨ Nameless host := by
  have trimmed : trim host = host := trimMatches_self clean
  rw [hostname, trimmed]
  constructor
  · intro empty
    split at empty
    · next rest bracket =>
        rw [stripPrefix_eq_some.mp bracket]
        split at empty
        · next inner after cut =>
            rw [(splitOnce_eq_some.mp cut).2, empty]
            exact .inr (.brackets after)
        · rw [empty]
          exact .inr .bracket
    · split at empty
      · next name port cut =>
          obtain ⟨last, whole⟩ := rsplitOnce_eq_some.mp cut
          split at empty
          · exact .inl empty
          · rw [whole, empty]
            exact .inr (.port last)
      · exact .inl empty
  · rintro (rfl | nameless)
    · rfl
    · cases nameless with
      | @port port last =>
          have noBracket : stripPrefix ['['] (':' :: port) = none := rfl
          have cut : rsplitOnce ':' (':' :: port) = some ([], port) := rsplitOnce_append last []
          simp [noBracket, cut]
      | brackets rest => rfl
      | bracket => rfl

/-! ## The loop over the values -/

/-- What holds of the domains at every turn of the loop: they are those of the routes. -/
structure RouteScan.Named (scan : RouteScan) : Prop where
  unique : scan.acmeDomains.Nodup
  exact : ∀ domain, domain ∈ scan.acmeDomains ↔ ∃ route ∈ scan.routes, route.acmeDomain = domain
  seen : ∀ domain, domain ∈ scan.seenAcmeDomains ↔ domain ∈ scan.acmeDomains

section Scan

variable {quote : Str → Str}

theorem RouteScan.Named.next {scan scan' : RouteScan} (named : scan.Named) {i : Nat}
    {value : RouteValues} (added : scan.next quote i value = .ok scan') : scan'.Named := by
  obtain ⟨route, -, -, rfl⟩ := RouteScan.next_cases added
  by_cases known : route.acmeDomain ∈ scan.seenAcmeDomains
  · have listed := (named.seen _).mp known
    refine ⟨?_, fun domain => ?_, fun domain => ?_⟩
    · simpa only [if_pos known] using named.unique
    · rw [if_pos known, named.exact]
      constructor
      · rintro ⟨earlier, member, same⟩
        exact ⟨earlier, List.mem_append_left _ member, same⟩
      · rintro ⟨other, member, rfl⟩
        rcases List.mem_append.mp member with old | new
        · exact ⟨other, old, rfl⟩
        · rw [List.mem_singleton.mp new]
          exact (named.exact _).mp listed
    · rw [if_pos known, Finset.mem_insert, named.seen, or_iff_right_of_imp]
      rintro rfl
      exact listed
  · have unlisted := mt (named.seen _).mpr known
    refine ⟨?_, fun domain => ?_, fun domain => ?_⟩
    · rw [if_neg known, List.nodup_append]
      refine ⟨named.unique, List.nodup_singleton _, ?_⟩
      intro domain old last new
      rw [List.mem_singleton.mp new]
      exact ne_of_mem_of_not_mem old unlisted
    · rw [if_neg known, List.mem_append, named.exact, List.mem_singleton]
      simp [or_and_right, exists_or, eq_comm]
    · rw [if_neg known, Finset.mem_insert, List.mem_append, List.mem_singleton, named.seen,
        or_comm]

end Scan

/-! ## Names that can be used -/

/-- What the rest of the program takes for granted of the names of its routes. -/
structure UsableNames (values : List RouteValues) (routes : List ParsedRoute)
    (domains : List Str) : Prop where
  hostnames : ∀ route ∈ routes, route.publicUrl.hostname ≠ []
  named : ∀ domain ∈ domains, domain ≠ []
  distinct : (routes.map fun route => route.key).Nodup
  unique : domains.Nodup
  exact : ∀ domain, domain ∈ domains ↔ ∃ route ∈ routes, route.acmeDomain = domain
  lowered : List.Forall₂ (fun value route => route.acmeDomain =
    toAsciiLowercase (if trim value.acmeDomain = [] then route.key else trim value.acmeDomain))
    values routes
  unrouted : ∀ (crates : Crates) (cfg : Config) (auth : Option Store),
    cfg.routes = routes.map ParsedRoute.toRoute →
    ∀ req : Request, (req.authority = none ∧ req.headers.get "host".toList = none) ∨
        hostname (requestHost req) = [] →
      ∀ state conn env, (Server.withStats crates cfg auth).step crates state
        (.request req conn env) = (state, [.answered Server.notFound])

section Accepted

variable {quote : Str → Str} {values : List RouteValues} {routes : List ParsedRoute}
  {domains : List Str}

/-- The domains of accepted routes are listed once. -/
theorem parseRoutes_named (accepted : parseRoutes quote values = .ok (routes, domains)) :
    domains.Nodup ∧ ∀ domain, domain ∈ domains ↔ ∃ route ∈ routes, route.acmeDomain = domain := by
  obtain ⟨-, scan, named, rfl, rfl⟩ := parseRoutes_induction RouteScan.Named
    ⟨by simp, by simp, by simp⟩ (fun named added => named.next added) accepted
  exact ⟨named.unique, named.exact⟩

theorem RouteValues.Yields.hostname_ne_nil {value : RouteValues} {route : ParsedRoute}
    (yields : value.Yields route) : route.publicUrl.hostname ≠ [] ↔
      ¬ Nameless route.publicUrl.host := by
  have clean := fun c inside => (HttpUrl.parse_host yields.publicUrl c inside).1
  rw [HttpUrl.hostname, ne_eq, hostname_eq_nil_iff clean, not_or]
  exact and_iff_right yields.host

/-- A lower-cased name is empty only when the name is. -/
theorem toAsciiLowercase_ne_nil {name : Str} : toAsciiLowercase name ≠ [] ↔ name ≠ [] := by
  rw [toAsciiLowercase, ne_eq, List.map_eq_nil_iff]

/-- The domain of a route is its hostname when there is none of its own. -/
theorem RouteValues.Yields.acmeDomain_ne_nil {value : RouteValues} {route : ParsedRoute}
    (yields : value.Yields route) (named : route.publicUrl.hostname ≠ []) :
    route.acmeDomain ≠ [] := by
  rw [yields.acmeDomain, toAsciiLowercase_ne_nil]
  split
  · exact toAsciiLowercase_ne_nil.mpr named
  · next own => exact own

/-- The names of accepted routes can be used exactly when no public URL has a nameless host:
its names are there, every name is listed once, and a request without a hostname gets to no
route. -/
theorem usable_names_iff (accepted : parseRoutes quote values = .ok (routes, domains)) :
    UsableNames values routes domains ↔
      ∀ value ∈ values, ∀ url, HttpUrl.parse (trim value.publicUrl) = .ok url →
        ¬ Nameless url.host := by
  obtain ⟨unique, exact⟩ := parseRoutes_named accepted
  constructor
  · intro usable value member url parsed
    obtain ⟨route, inRoutes, yields⟩ := exists_yielded accepted member
    obtain rfl : route.publicUrl = url := by
      rw [yields.publicUrl] at parsed
      exact Except.ok.inj parsed
    exact yields.hostname_ne_nil.mp (usable.hostnames route inRoutes)
  · intro named
    have hostnames : ∀ route ∈ routes, route.publicUrl.hostname ≠ [] := by
      intro route inRoutes
      obtain ⟨value, member, yields⟩ := exists_yields accepted inRoutes
      exact yields.hostname_ne_nil.mpr (named value member _ yields.publicUrl)
    have lowered := (parseRoutes_yields accepted).imp fun _ _ yields => yields.acmeDomain
    refine ⟨hostnames, ?_, (parseRoutes_sound accepted).1, unique, exact, lowered, ?_⟩
    · intro domain listed
      obtain ⟨route, inRoutes, rfl⟩ := (exact domain).mp listed
      obtain ⟨value, member, yields⟩ := exists_yields accepted inRoutes
      exact yields.acmeDomain_ne_nil (hostnames route inRoutes)
    · intro crates cfg auth configured req absent state conn env
      have noHostname : hostname (requestHost req) = [] := by
        rcases absent with ⟨noAuthority, noHeader⟩ | noHostname
        · rw [requestHost, noAuthority]
          dsimp only
          rw [noHeader]
          rfl
        · exact noHostname
      refine step_unrouted (fun route inRoutes same => ?_) state conn env
      rw [configured] at inRoutes
      obtain ⟨parsed, inParsed, rfl⟩ := List.mem_map.mp inRoutes
      rw [Server.hostKey, noHostname] at same
      exact toAsciiLowercase_ne_nil.mpr (hostnames parsed inParsed) same

end Accepted

/-- A route with a name, an upstream without one, and two domains of the same letters. -/
theorem usable_names_iff_domains :
    let values : List RouteValues :=
      [⟨"http://:8096".toList, "https://user@Media.example:443/emby".toList, []⟩,
        ⟨"http://emby".toList, "http://[::1]".toList, " MEDIA.example".toList⟩]
    ∃ routes domains, parseRoutes id values = .ok (routes, domains) ∧
      UsableNames values routes domains ∧ domains = ["media.example".toList] := by
  intro values
  have accepted : parseRoutes id values = .ok
      ([⟨⟨⟨"http".toList, ":8096".toList, [], []⟩,
          ⟨"https".toList, "Media.example:443".toList, "/emby".toList, []⟩⟩,
            "media.example".toList⟩,
        ⟨⟨⟨"http".toList, "emby".toList, [], []⟩, ⟨"http".toList, "[::1]".toList, [], []⟩⟩,
          "media.example".toList⟩], ["media.example".toList]) := by
    rfl
  refine ⟨_, _, accepted, (usable_names_iff accepted).mpr ?_, rfl⟩
  intro value member url parsed nameless
  simp only [values, List.mem_cons, List.not_mem_nil, or_false] at member
  rcases member with rfl | rfl
  · cases parsed
    cases nameless
  · cases parsed
    cases nameless

/-- A port without a host is accepted.  Its route has an empty key and an empty domain, and
is the one for requests without a host. -/
theorem unnamed_route_accepted :
    let values : List RouteValues := [⟨"http://emby:8096".toList, "http://:8080".toList, []⟩]
    let route : Route := {
      upstreamUrl := ⟨"http".toList, "emby:8096".toList, [], []⟩
      publicUrl := ⟨"http".toList, ":8080".toList, [], []⟩ }
    let cfg := { Reference.config [] [] with routes := [route] }
    let req := { Reference.request .get "/" none [] with headers := HeaderMap.empty }
    parseRoutes id values = .ok ([⟨route, []⟩], [[]]) ∧
      ¬ UsableNames values [⟨route, []⟩] [[]] ∧
      req.authority = none ∧ req.headers.get "host".toList = none ∧
      (Server.withStats Reference.crates cfg none).routes.lookup (Server.hostKey req) =
        some (RouteProxy.new Reference.crates cfg route none) := by
  intro values route cfg req
  refine ⟨rfl, fun usable => ?_, ?_, ?_, ?_⟩
  · exact usable.named [] List.mem_cons_self rfl
  · rfl
  · rfl
  · exact Finmap.lookup_insert ∅

end Proxemby
