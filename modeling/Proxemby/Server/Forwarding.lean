import Proxemby.Server.Issued

/-!
# Issued URLs in a running process

From the moment at which a route rewrites a URL, the process knows its host and keeps
the secret of its signature.  So a request for it is forwarded at once and forever,
unless the route has lost the host or the path on the way.
-/

namespace Proxemby

open Text Utf8

/-- A text without a percent sign is left as it is when all its characters are. -/
theorem escapePath_eq_self_iff {text : Str} (plain : '%' ∉ text) :
    escapePath text = text ↔ ∀ c ∈ text, isPathChar c = true := by
  constructor
  · intro same c member
    rw [← same] at member
    rcases escapePath_chars text c member with kept | rfl
    · exact kept
    · rw [same] at member
      exact absurd member plain
  · exact escapePath_self

theorem validHost_noPercent {host : Str} (valid : validHost host = true) : '%' ∉ host := by
  intro percent
  have octet := (mem_encode_ascii (c := '%') (by decide)).mpr percent
  have bad : ((encode host).any fun b => b ≤ 0x20 || b == 0x25 || b == 0x22 || b == 0x3C ||
      b == 0x3E || b == 0x5C) = true := List.any_eq_true.mpr ⟨_, octet, by decide⟩
  rw [validHost, if_pos (.inr bad)] at valid
  cases valid

namespace Server

variable (crates : Crates) (server : Server)

/-- A step on which a route rewrites a URL that an answer contains. -/
def RewritesUrl (state : State) (key raw issued scheme host : Str) (input : Input) : Prop :=
  ∃ id result env proxy task body registry out events event,
    input = .reply id result env ∧ server.Resumes state id key proxy (.upstream task) ∧
    proxy.RunsRewriter crates state.auth task result body ∧
    proxy.rewriter.rewritePlaybackInfo crates.toJson (state.registries key) body =
      some (registry, out, events) ∧
    event ∈ events ∧ event.original = raw ∧ event.rewritten = issued ∧
    event.scheme = scheme ∧ event.host = host

/-- The states after a route has rewritten a URL: the one in which `rewrite_url` has just
returned, the one at the end of an answer with that URL, and all later ones. -/
inductive HasRewritten (start : State) (key raw issued scheme host : Str) : State → Prop where
  | url (earlier : List Input) {proxy : RouteProxy} {registry : Registry}
      (route : server.routes.lookup key = some proxy)
      (rewrote : proxy.rewriter.rewriteUrl
        (((server.machine crates).run start earlier).registries key) raw =
          some (registry, issued, scheme, host)) :
      HasRewritten start key raw issued scheme host
        { (server.machine crates).run start earlier with
          registries := Function.update
            ((server.machine crates).run start earlier).registries key registry }
  | answer (earlier : List Input) {input : Input}
      (rewrites : server.RewritesUrl crates ((server.machine crates).run start earlier) key raw
        issued scheme host input) :
      HasRewritten start key raw issued scheme host
        ((server.machine crates).next ((server.machine crates).run start earlier) input)
  | later {state : State} (before : HasRewritten start key raw issued scheme host state)
      (input : Input) :
      HasRewritten start key raw issued scheme host ((server.machine crates).next state input)

variable {crates server}

/-- The answer to a PlaybackInfo request leaves the hosts of its URLs in the registry. -/
theorem RewritesUrl.allows {state : State} {key raw issued scheme host : Str} {input : Input}
    (rewrites : server.RewritesUrl crates state key raw issued scheme host input) :
    (((server.machine crates).next state input).registries key).Allows host := by
  obtain ⟨id, result, env, proxy, task, body, registry, out, events, event, rfl, resumes, runs,
    ran, member, -, -, -, rfl⟩ := rewrites
  obtain ⟨-, hosts⟩ := proxy.rewriter.rewritePlaybackInfo_learns crates.toJson ran
  have learned : proxy.learned crates (state.registries key) body = registry := by
    simp [RouteProxy.learned, ran]
  have world : (proxy.upstreamReply crates (state.world key) env task result).world =
      { state.world key with registry } := by
    rw [← learned]
    exact proxy.upstreamReply_of_runs crates (state.world key) env runs
  have after : ((server.machine crates).next state (.reply id result env)).registries key =
      registry := by
    simp only [Machine.next, machine, step, resumes.task, resumes.route, State.withWorld,
      Function.update_self, RouteProxy.resume, RouteProxy.removeSession_registry, world]
  rw [after]
  exact (hosts event.host).mpr (.inr ⟨event, member, rfl⟩)

/-- What a URL that has been rewritten leaves behind. -/
theorem HasRewritten.spec {start state : State} {key raw issued scheme host : Str}
    (rewritten : server.HasRewritten crates start key raw issued scheme host state) :
    (∃ proxy url, server.routes.lookup key = some proxy ∧ urlParts raw = some url ∧
      issued = proxy.rewriter.rewritten url ∧ scheme = url.scheme ∧ host = url.host) ∧
    (state.registries key).Allows host ∧
    state.auth.map Store.identity = start.auth.map Store.identity := by
  induction rewritten with
  | @url earlier proxy registry route rewrote =>
      rw [Rewriter.rewriteUrl_eq, Option.map_eq_some_iff] at rewrote
      obtain ⟨url, parts, same⟩ := rewrote
      simp only [Prod.mk.injEq] at same
      obtain ⟨rfl, rfl, rfl, rfl⟩ := same
      refine ⟨⟨proxy, url, route, parts, rfl, rfl, rfl⟩, ?_, ?_⟩
      · dsimp only
        rw [Function.update_self, Registry.allows_allow]
        exact .inr ⟨rfl, host_ne_nil parts⟩
      · exact run_identity crates server start earlier
  | @answer earlier input rewrites =>
      refine ⟨?_, rewrites.allows, ?_⟩
      · obtain ⟨id, result, env, proxy, task, body, registry, out, events, event, rfl, resumes,
          runs, ran, member, rfl, rfl, rfl, rfl⟩ := rewrites
        obtain ⟨reports, -⟩ := proxy.rewriter.rewritePlaybackInfo_learns crates.toJson ran
        obtain ⟨⟨url, parts, rewritten, scheme, host⟩, -⟩ := reports event member
        exact ⟨proxy, url, resumes.route, parts, rewritten, scheme, host⟩
      · rw [next_identity]
        exact run_identity crates server start earlier
  | later before input ih =>
      obtain ⟨url, allows, identity⟩ := ih
      exact ⟨url, server.next_keeps crates _ input allows,
        (server.next_identity crates _ input).trans identity⟩

variable (crates)

/-- When a request for an issued URL is forwarded, in every state after the rewrite: the
host has no character that `escape_path` escapes, the path has more than slashes, and
`http::Uri` takes the target. -/
theorem issued_passes_iff (documented : crates.Documented) {cfg : Config} {disk disk' : Disk}
    {env : Env} {server : Server} {start : State}
    (booted : boot crates cfg disk env = (disk', .ok (server, start)))
    {key : Str} {proxy : RouteProxy} (route : server.routes.lookup key = some proxy)
    (root : proxy.route.publicUrl.path = [] ∨ proxy.route.publicUrl.path = ['/'])
    {raw issued scheme host : Str} {state : State}
    (rewritten : server.HasRewritten crates start key raw issued scheme host state)
    {req : Request} (asks : Asks proxy.route.publicUrl issued req) :
    proxy.Passes crates (state.world key) req scheme host ↔
      ∃ url, urlParts raw = some url ∧ (∀ c ∈ url.host, isPathChar c = true) ∧
        (∃ c ∈ url.path, c ≠ '/') ∧ (crates.parseUri url.target).isSome = true := by
  obtain ⟨⟨proxy', url, route', parts, rfl, rfl, rfl⟩, allows, identity⟩ := rewritten.spec
  rw [route, Option.some.injEq] at route'
  subst route'
  obtain ⟨auth, -, rfl, rfl⟩ := boot_spec booted
  obtain ⟨known, -, rfl, -⟩ := lookup_withStats route
  obtain ⟨userinfo, fragment, of⟩ := urlParts_of parts
  have secret : (state.world key).auth.map Store.secret = auth.map Store.secret := by
    have secrets := congrArg (Option.map Prod.snd) identity
    rwa [Option.map_map, Option.map_map] at secrets
  have passes := @RouteProxy.passes_issued_iff crates cfg known _ documented _ _ parts root
      (state.world key) secret allows _ asks
  have path : url.trimmed ≠ [] ↔ ∃ c ∈ url.path, c ≠ '/' := by
    rw [UrlParts.trimmed, ne_eq, trimMatches_eq_nil_iff]
    simp
  rw [passes, escapePath_eq_self_iff (validHost_noPercent of.host), path]
  simp [parts]

/-- A signed URL on a host that no configuration lists. -/
theorem issued_passes_iff_signed :
    ∃ (proxy : RouteProxy) (state : State), proxy.Passes Reference.crates
      (state.world "proxemby".toList)
      (Reference.request .get "/_proxy/9v9k6nr-3M8Yf8oREu-yhQ/https/cdn.example.com/movie.mkv"
        (some "t=1") []) "https".toList "cdn.example.com".toList := by
  have parts : urlParts "https://cdn.example.com/movie.mkv?t=1".toList =
      some {
        scheme := "https".toList
        host := "cdn.example.com".toList
        rawPath := "/movie.mkv".toList
        path := "/movie.mkv".toList
        query := some "t=1".toList } := by
    decide +kernel
  obtain ⟨proxy, route, root⟩ : ∃ proxy,
      (Reference.server (Reference.config ["ken"] [])).routes.lookup "proxemby".toList =
        some proxy ∧ proxy.route.publicUrl.path = [] := ⟨_, rfl, rfl⟩
  obtain rfl : RouteProxy.new Reference.crates (Reference.config ["ken"] []) Reference.route
      (some Reference.store) = proxy := by
    apply Option.some.inj
    rw [← route]
    rfl
  refine ⟨_, _, (issued_passes_iff Reference.crates Reference.documented
    (@Reference.boot_eq (Reference.config ["ken"] []) (by decide) rfl) route (.inl root)
    (.url [] route (by rw [Rewriter.rewriteUrl_eq, parts, Option.map_some]))
    ⟨by decide +kernel, by decide +kernel⟩).mpr
      ⟨_, parts, by decide +kernel, by decide +kernel, by decide +kernel⟩⟩

/-- The rewriter issues a URL with a path for a raw URL on a host, and the process without
users refuses a request for that path. -/
def Refuses (raw host path : String) (response : Response) : Prop :=
  ∃ state, (withStats Reference.crates (Reference.config [] []) none).HasRewritten
      Reference.crates (initial (Reference.config [] []) none fun _ => none)
      "proxemby".toList raw.toList ("http://proxemby".toList ++ path.toList)
      "http".toList host.toList state ∧
    ((withStats Reference.crates (Reference.config [] []) none).machine
        Reference.crates).outputs state
      (.request (Reference.request .get path none []) Reference.conn Reference.env) =
        [.answered response]

/-- Issued URLs that are refused: the brackets of an IPv6 host come back escaped, and a
URL without a path comes back without the slash behind its host. -/
theorem issued_refused :
    Refuses "http://[::1]:8096/a.mkv" "[::1]:8096" "/_proxy/http/%5B::1%5D:8096/a.mkv"
      (textResponse 403 "proxied resource host is not allowed") ∧
    Refuses "http://cdn.example.com" "cdn.example.com" "/_proxy/http/cdn.example.com"
      (textResponse 400 "missing proxied resource host") := by
  have brackets : urlParts "http://[::1]:8096/a.mkv".toList =
      some ⟨"http".toList, "[::1]:8096".toList, "/a.mkv".toList, "/a.mkv".toList, none⟩ := by
    decide +kernel
  have noPath : urlParts "http://cdn.example.com".toList =
      some ⟨"http".toList, "cdn.example.com".toList, [], [], none⟩ := by
    decide +kernel
  have route : (withStats Reference.crates (Reference.config [] []) none).routes.lookup
      "proxemby".toList = some (RouteProxy.new Reference.crates (Reference.config [] [])
        Reference.route none) := rfl
  rw [Refuses, Refuses]
  refine ⟨⟨_, @HasRewritten.url _ _ _ _ _ _ _ _ [] _
      ((Registry.new []).allow "[::1]:8096".toList "http".toList) route ?_, ?_⟩,
    ⟨_, @HasRewritten.url _ _ _ _ _ _ _ _ [] _
      ((Registry.new []).allow "cdn.example.com".toList "http".toList) route ?_, ?_⟩⟩
  · rw [Rewriter.rewriteUrl_eq, brackets, Option.map_some]
    rfl
  · decide +kernel
  · rw [Rewriter.rewriteUrl_eq, noPath, Option.map_some]
    rfl
  · decide +kernel

end Server

end Proxemby
