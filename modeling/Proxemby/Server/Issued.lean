import Proxemby.Escape
import Proxemby.Server.Resource

/-!
# Issued URLs

What becomes of a URL that the rewriter has issued when a client asks for it: where
`proxy_resource` cuts its path, and which checks it passes.
-/

namespace Proxemby

open Text Utf8

/-- The path of a resource: the decoded path without its outer slashes. -/
def UrlParts.trimmed (url : UrlParts) : Str := trimMatches (· = '/') url.path

/-- A query that is not empty. -/
def UrlParts.kept (url : UrlParts) : Option Str := url.query.filter (· ≠ [])

/-- A request for an issued URL: its path and query are those of the URL. -/
structure Asks (publicUrl : HttpUrl) (issued : Str) (req : Request) : Prop where
  whole : issued = publicUrl.scheme ++ "://".toList ++ publicUrl.host ++ req.path ++
    queryText req.query
  path : '?' ∉ req.path

/-- A signature segment with its slash. -/
def signatureText : Option Str → Str
  | some signature => signature ++ ['/']
  | none => []

/-- The path of an issued URL. -/
def issuedPath (signature : Option Str) (url : UrlParts) : Str :=
  resourcePrefix ++ signatureText signature ++ url.scheme ++ '/' :: escapePath url.host ++
    if url.trimmed = [] then [] else '/' :: escapePath url.trimmed

theorem isHttpScheme_iff {scheme : Str} :
    isHttpScheme scheme = true ↔ scheme = "http".toList ∨ scheme = "https".toList := by
  simp [isHttpScheme]

/-- `proxy_resource` finds the scheme and the escaped host of an issued URL, unless its
path is missing. -/
theorem resourceParts_issuedPath {signature : Option Str} {url : UrlParts}
    (scheme : isHttpScheme url.scheme = true) (named : escapePath url.host ≠ [])
    (host : '/' ∉ url.host)
    (plain : ∀ segment ∈ signature, '/' ∉ segment ∧ isHttpScheme segment = false) :
    resourceParts signature.isSome (issuedPath signature url) =
      if url.trimmed = [] then .error "missing proxied resource host"
      else .ok {
        first := signature.getD url.scheme
        scheme := url.scheme
        host := escapePath url.host
        rest := escapePath url.trimmed } := by
  have schemeFresh := noSlash_of_isHttpScheme scheme
  have hostFresh : '/' ∉ escapePath url.host := mt slash_mem_escapePath.mp host
  have noHost : splitOnce '/' (escapePath url.host) = none := splitOnce_eq_none.mpr hostFresh
  cases signature with
  | none =>
      have path : (issuedPath none url).drop resourcePrefix.length =
          url.scheme ++ '/' :: (escapePath url.host ++
            if url.trimmed = [] then [] else '/' :: escapePath url.trimmed) := by
        simp [issuedPath, signatureText]
      rw [resourceParts, path, splitFirstSegment_append schemeFresh]
      simp only [Option.isSome_none, Bool.false_and, scheme, ↓reduceIte, splitHost,
        Option.getD_none]
      by_cases empty : url.trimmed = []
      · simp [empty, noHost]
      · simp [empty, splitOnce_append hostFresh, named]
  | some segment =>
      obtain ⟨fresh, unsigned⟩ := plain segment rfl
      have path : (issuedPath (some segment) url).drop resourcePrefix.length =
          segment ++ '/' :: (url.scheme ++ '/' :: (escapePath url.host ++
            if url.trimmed = [] then [] else '/' :: escapePath url.trimmed)) := by
        simp [issuedPath, signatureText]
      rw [resourceParts, path, splitFirstSegment_append fresh]
      simp only [Option.isSome_some, unsigned, Bool.not_false, Bool.and_self,
        splitFirstSegment_append schemeFresh, scheme, ↓reduceIte, splitHost, Option.getD_some]
      by_cases empty : url.trimmed = []
      · simp [empty, noHost]
      · simp [empty, splitOnce_append hostFresh, named]

theorem escapePath_ne_nil {text : Str} (named : text ≠ []) : escapePath text ≠ [] := by
  intro empty
  have decoded := percentDecode_escapePath text
  rw [empty] at decoded
  exact named (Option.some.inj decoded).symm

theorem escapePath_slash (text : Str) : escapePath ('/' :: text) = '/' :: escapePath text := by
  rw [escapePath_cons, escapePath_singleton (by decide), List.singleton_append]

theorem escapePath_scheme {scheme : Str} (http : isHttpScheme scheme = true) :
    escapePath scheme = scheme := by
  rcases isHttpScheme_iff.mp http with same | same <;> rw [same] <;> decide

/-- A part of a joined path, as `join_url_path` writes it. -/
def joinPart (part : Str) : Str :=
  if trimMatches (· = '/') part = [] then [] else '/' :: trimMatches (· = '/') part

theorem joinPart_segment {segment : Str} (named : segment ≠ []) (fresh : '/' ∉ segment) :
    joinPart segment = '/' :: segment := by
  have same : trimMatches (· = '/') segment = segment := by
    apply trimMatches_self
    intro c member
    rw [decide_eq_false_iff_not]
    rintro rfl
    exact fresh member
  rw [joinPart, same, if_neg named]

theorem joinUrlPath_cons {base first : Str} (root : trimMatches (· = '/') base = [])
    (named : first ≠ []) (fresh : '/' ∉ first) (parts : List Str) :
    joinUrlPath base (first :: parts) = '/' :: first ++ parts.flatMap joinPart := by
  have whole : (base :: first :: parts).flatMap joinPart =
      '/' :: first ++ parts.flatMap joinPart := by
    rw [List.flatMap_cons, List.flatMap_cons, joinPart_segment named fresh, joinPart, if_pos root,
      List.nil_append]
  have unfolded : joinUrlPath base (first :: parts) =
      if (base :: first :: parts).flatMap joinPart = [] then ['/']
      else (base :: first :: parts).flatMap joinPart := rfl
  rw [unfolded, whole, if_neg (by simp)]

/-- The path of a rewritten URL, for a public URL without a path. -/
theorem escapePath_joinUrlPath {publicPath : Str} {signature : Option Str} {url : UrlParts}
    (root : trimMatches (· = '/') publicPath = [])
    (scheme : isHttpScheme url.scheme = true) (named : url.host ≠ []) (host : '/' ∉ url.host)
    (plain : ∀ segment ∈ signature, segment ≠ [] ∧ '/' ∉ segment ∧
      ∀ c ∈ segment, isPathChar c = true) :
    escapePath (joinUrlPath publicPath
        (["_proxy".toList] ++ signature.toList ++
          [url.scheme, url.host, url.path.dropWhile (· = '/')])) =
      issuedPath signature url := by
  have schemeNamed : url.scheme ≠ [] := by
    rintro empty
    rw [empty] at scheme
    cases scheme
  have tail : escapePath ([url.scheme, url.host, url.path.dropWhile (· = '/')].flatMap joinPart) =
      '/' :: (url.scheme ++ '/' :: escapePath url.host ++
        if url.trimmed = [] then [] else '/' :: escapePath url.trimmed) := by
    rw [List.flatMap_cons, List.flatMap_cons, List.flatMap_cons, List.flatMap_nil,
      joinPart_segment schemeNamed (noSlash_of_isHttpScheme scheme),
      joinPart_segment named host, joinPart, trimMatches_dropWhile, ← UrlParts.trimmed,
      escapePath_append, escapePath_append, escapePath_slash, escapePath_slash,
      escapePath_scheme scheme, List.append_nil]
    by_cases empty : url.trimmed = []
    · simp [empty, escapePath, escapeWith]
    · simp [empty, escapePath_slash]
  have word : escapePath ('/' :: "_proxy".toList) = '/' :: "_proxy".toList := by decide
  have start : '/' :: "_proxy".toList ++ ['/'] = resourcePrefix := by decide
  rw [List.append_assoc, List.singleton_append,
    joinUrlPath_cons root (by decide) (by decide), List.flatMap_append, escapePath_append,
    escapePath_append, tail, word]
  cases signature with
  | none =>
      have nothing : escapePath ((none : Option Str).toList.flatMap joinPart) = [] := rfl
      rw [nothing, issuedPath, signatureText, ← start]
      simp only [List.append_assoc, List.nil_append, List.cons_append]
  | some segment =>
      obtain ⟨segmentNamed, fresh, letters⟩ := plain segment rfl
      have signed : escapePath ((some segment).toList.flatMap joinPart) = '/' :: segment := by
        rw [Option.toList_some, List.flatMap_singleton, joinPart_segment segmentNamed fresh,
          escapePath_slash, escapePath_self letters]
      rw [signed, issuedPath, signatureText, ← start]
      simp only [List.append_assoc, List.nil_append, List.cons_append]

/-! ## Requests for issued URLs -/

/-- The text that `http::Uri` gets for an issued URL. -/
def UrlParts.target (url : UrlParts) : Str :=
  url.scheme ++ "://".toList ++ url.host ++ '/' :: escapePath url.trimmed ++ queryText url.kept

namespace RouteProxy

variable (crates : Crates) {cfg : Config} {route : Route} {auth : Option Store}

/-- The signature that a route issues for a scheme and a host. -/
def signature (cfg : Config) (route : Route) (auth : Option Store) (url : UrlParts) :
    Option Str :=
  auth.map fun store =>
    store.sign crates.toStoreCrates [(new crates cfg route auth).routeKey, url.scheme, url.host]

/-- A signature is a path segment that is no scheme. -/
theorem signature_plain (documented : crates.Documented) {url : UrlParts} :
    ∀ segment ∈ signature crates cfg route auth url, segment ≠ [] ∧ '/' ∉ segment ∧
      isHttpScheme segment = false ∧ ∀ c ∈ segment, isPathChar c = true := by
  intro segment member
  obtain ⟨store, -, rfl⟩ := Option.map_eq_some_iff.mp member
  have length := store.sign_length documented
    [(new crates cfg route auth).routeKey, url.scheme, url.host]
  have letters : ∀ c ∈ store.sign crates.toStoreCrates
      [(new crates cfg route auth).routeKey, url.scheme, url.host],
      isPathChar c = true ∧ c ≠ '/' := by
    intro c among
    have class' := documented.urlSafe_letters _ c among
    have ascii : c.toNat < 0x80 := by
      rcases class' with alnum | rfl | rfl
      · change ((decide (c.val ≥ 65 ∧ c.val ≤ 90) ||
            (decide (c.val ≥ 97) && decide (c.val ≤ 122))) ||
          (decide (c.val ≥ 48) && decide (c.val ≤ 57))) = true at alnum
        have number : c.toNat = c.val.toNat := rfl
        simp [UInt32.le_iff_toNat_le] at alnum
        omega
      · decide
      · decide
    have each : (c.isAlphanum ∨ c = '-' ∨ c = '_') → isPathChar c = true ∧ c ≠ '/' :=
      ascii_forall (fun c => (c.isAlphanum ∨ c = '-' ∨ c = '_') →
        isPathChar c = true ∧ c ≠ '/') (by decide +kernel) ascii
    exact each class'
  refine ⟨?_, fun slash => (letters _ slash).2 rfl, ?_, fun c among => (letters c among).1⟩
  · intro empty
    rw [empty] at length
    cases length
  · rw [← Bool.not_eq_true, isHttpScheme_iff]
    rintro (same | same) <;> rw [same] at length <;> cases length

/-- The path that a route without a public path gives a URL. -/
theorem rewritten_path (documented : crates.Documented) {raw : Str} {url : UrlParts}
    (parts : urlParts raw = some url)
    (root : route.publicUrl.path = [] ∨ route.publicUrl.path = ['/']) :
    escapePath (joinUrlPath (new crates cfg route auth).rewriter.publicPath
        ((new crates cfg route auth).rewriter.segments url)) =
      issuedPath (signature crates cfg route auth url) url := by
  obtain ⟨userinfo, fragment, of⟩ := urlParts_of parts
  have publicPath : (new crates cfg route auth).rewriter.publicPath = route.publicUrl.path := by
    have decoded : percentDecode route.publicUrl.path false = some route.publicUrl.path := by
      rcases root with same | same <;> rw [same] <;> rfl
    cases auth <;> simp [new, Rewriter.new, Rewriter.withSigner, decoded]
  have trimmed : trimMatches (· = '/') (new crates cfg route auth).rewriter.publicPath = [] := by
    rw [publicPath]
    rcases root with same | same <;> rw [same] <;> decide
  have segments : (new crates cfg route auth).rewriter.segments url =
      ["_proxy".toList] ++ (signature crates cfg route auth url).toList ++
        [url.scheme, url.host, url.path.dropWhile (· = '/')] := by
    cases auth <;> rfl
  rw [segments]
  apply escapePath_joinUrlPath trimmed (isHttpScheme_iff.mpr of.scheme)
    (validHost_ne_nil of.host) (fun slash => (of.hostChars _ slash).2.1 rfl)
  intro segment member
  have plain := signature_plain crates documented segment member
  exact ⟨plain.1, plain.2.1, plain.2.2.2⟩

/-- What a route without a public path makes of a URL. -/
theorem rewritten_eq (documented : crates.Documented) {raw : Str} {url : UrlParts}
    (parts : urlParts raw = some url)
    (root : route.publicUrl.path = [] ∨ route.publicUrl.path = ['/']) :
    (new crates cfg route auth).rewriter.rewritten url =
      route.publicUrl.scheme ++ "://".toList ++ route.publicUrl.host ++
        issuedPath (signature crates cfg route auth url) url ++ queryText url.kept := by
  have publicUrl : (new crates cfg route auth).rewriter.publicUrl = route.publicUrl := by
    cases auth <;> rfl
  rw [Rewriter.rewritten, rewritten_path crates documented parts root, publicUrl,
    UrlParts.kept]
  cases url.query with
  | none => simp [queryText]
  | some query =>
      by_cases empty : query = []
      · simp [empty, queryText, Option.filter]
      · simp [empty, queryText, Option.filter]

/-- A request for an issued URL has its path and its query. -/
theorem path_of_asks (documented : crates.Documented) {raw : Str} {url : UrlParts}
    (parts : urlParts raw = some url)
    (root : route.publicUrl.path = [] ∨ route.publicUrl.path = ['/']) {req : Request}
    (asks : Asks route.publicUrl ((new crates cfg route auth).rewriter.rewritten url) req) :
    req.path = issuedPath (signature crates cfg route auth url) url ∧ req.query = url.kept := by
  have whole := asks.whole
  rw [rewritten_eq crates documented parts root] at whole
  simp only [List.append_assoc, List.append_cancel_left_eq] at whole
  have noMark : '?' ∉ issuedPath (signature crates cfg route auth url) url := by
    rw [← rewritten_path crates documented parts root]
    intro mark
    rcases escapePath_chars _ _ mark with kept | percent
    · exact absurd kept (by decide)
    · exact absurd percent (by decide)
  have cut : ∀ {path : Str} (query : Option Str), '?' ∉ path →
      splitQuery (path ++ queryText query) = (path, query) := by
    intro path query fresh
    cases query with
    | none =>
        rw [queryText, List.append_nil, splitQuery, splitOnce_eq_none.mpr fresh]
    | some query => rw [queryText, splitQuery, splitOnce_append fresh]
  have same := cut url.kept noMark
  rw [whole, cut req.query asks.path, Prod.mk.injEq] at same
  exact same

/-- The parts of a request for an issued URL. -/
theorem resourceParts_of_asks (documented : crates.Documented) {raw : Str} {url : UrlParts}
    (parts : urlParts raw = some url)
    (root : route.publicUrl.path = [] ∨ route.publicUrl.path = ['/']) {req : Request}
    (asks : Asks route.publicUrl ((new crates cfg route auth).rewriter.rewritten url) req) :
    resourceParts auth.isSome req.path =
      if url.trimmed = [] then .error "missing proxied resource host"
      else .ok {
        first := (signature crates cfg route auth url).getD url.scheme
        scheme := url.scheme
        host := escapePath url.host
        rest := escapePath url.trimmed } := by
  obtain ⟨userinfo, fragment, of⟩ := urlParts_of parts
  have found := @resourceParts_issuedPath (signature crates cfg route auth url) _
      (isHttpScheme_iff.mpr of.scheme) (escapePath_ne_nil (validHost_ne_nil of.host))
      (fun slash => (of.hostChars _ slash).2.1 rfl) (fun segment member =>
      have plain := signature_plain crates documented segment member
      ⟨plain.2.1, plain.2.2.1⟩)
  rw [(path_of_asks crates documented parts root asks).1, ← found, signature, Option.isSome_map]

/-- An escaped host has no bracket and no delimiter of a URL. -/
theorem escapePath_host {host : Str}
    (chars : ∀ c ∈ host, c ≠ '@' ∧ c ≠ '/' ∧ c ≠ '?' ∧ c ≠ '#') :
    ∀ c ∈ escapePath host, c ≠ '[' ∧ c ≠ '@' ∧ c ≠ '/' ∧ c ≠ '?' ∧ c ≠ '#' := by
  intro c member
  refine ⟨?_, ?_, ?_, ?_, ?_⟩
  · rintro rfl
    exact absurd (escapePath_chars host _ member) (by decide)
  · rintro rfl
    exact (chars _ (at_mem_escapePath.mp member)).1 rfl
  · rintro rfl
    exact (chars _ (slash_mem_escapePath.mp member)).2.1 rfl
  · rintro rfl
    exact absurd (escapePath_chars host _ member) (by decide)
  · rintro rfl
    exact absurd (escapePath_chars host _ member) (by decide)

/-- A request passes every check of `proxy_resource`, with a scheme and a host. -/
def Passes (proxy : RouteProxy) (world : World) (req : Request) (scheme host : Str) : Prop :=
  ∃ parts client out task, resourceParts world.auth.isSome req.path = .ok parts ∧
    parts.scheme = scheme ∧ parts.host = host ∧
    proxy.proxyResource crates world req = .send client out task

/-- When a request for an issued URL passes, in a world that knows the host and has the
secret of the signature. -/
theorem passes_issued_iff (documented : crates.Documented) {raw : Str} {url : UrlParts}
    (parts : urlParts raw = some url)
    (root : route.publicUrl.path = [] ∨ route.publicUrl.path = ['/']) {world : World}
    (secret : world.auth.map Store.secret = auth.map Store.secret)
    (allows : world.registry.Allows url.host) {req : Request}
    (asks : Asks route.publicUrl ((new crates cfg route auth).rewriter.rewritten url) req) :
    (new crates cfg route auth).Passes crates world req url.scheme url.host ↔
      escapePath url.host = url.host ∧ url.trimmed ≠ [] ∧
        (crates.parseUri url.target).isSome = true := by
  have isSome : world.auth.isSome = auth.isSome := by
    simpa using congrArg Option.isSome secret
  have found := resourceParts_of_asks crates documented parts root asks
  have query := (path_of_asks crates documented parts root asks).2
  rw [← isSome] at found
  simp only [Passes, proxyResource_eq_send]
  constructor
  · rintro ⟨cut, client, out, task, cut_eq, -, host, cut', cut'_eq, -, -, uri, -⟩
    rw [cut_eq, Except.ok.injEq] at cut'_eq
    subst cut'_eq
    rw [found] at cut_eq
    split at cut_eq
    · cases cut_eq
    · next named =>
        cases cut_eq
        refine ⟨host, named, ?_⟩
        rw [ResourceParts.target_eq, query] at uri
        rw [UrlParts.target]
        dsimp only at uri host
        rw [host] at uri
        exact uri
  · rintro ⟨kept, named, uri⟩
    rw [if_neg named, kept] at found
    refine ⟨_, _, _, _, found, rfl, rfl, _, found, ?_, allows, ?_, rfl, rfl, rfl⟩
    · cases auth with
      | none =>
          rw [Option.isSome_none, Option.isSome_eq_false_iff, Option.isNone_iff_eq_none] at isSome
          rw [isSome]
          rfl
      | some signer =>
          obtain ⟨store, auth', same⟩ := Option.map_eq_some_iff.mp secret
          have plain := @signature_plain crates cfg route (some signer) documented url _ rfl
          have sign : signer.sign crates.toStoreCrates
              [(new crates cfg route (some signer)).routeKey, url.scheme, url.host] =
              store.sign crates.toStoreCrates
                [(new crates cfg route (some signer)).routeKey, url.scheme, url.host] := by
            rw [Store.sign, Store.sign, same]
          rw [auth', resourceAuthorized]
          simp only [signature, Option.map_some, Option.getD_some, plain.2.2.1,
            Bool.false_eq_true, ↓reduceIte]
          rw [sign]
          exact store.verify_sign documented _
    · rw [ResourceParts.target_eq, query]
      exact uri

/-- What a request for an issued URL is sent to: the scheme and host of the original, its
query unless empty, and its decoded path up to the slashes at its ends.  Decoding repairs
octets that are not UTF-8 and keeps all others. -/
theorem issued_target (documented : crates.Documented) (uris : crates.RefusesEscapedHosts)
    {raw issued scheme host : Str} {registry registry' : Registry}
    (root : route.publicUrl.path = [] ∨ route.publicUrl.path = ['/'])
    (rewrote : (new crates cfg route auth).rewriter.rewriteUrl registry raw =
      some (registry', issued, scheme, host))
    {world : World} (isSome : world.auth.isSome = auth.isSome) {req : Request}
    (asks : Asks route.publicUrl issued req) {client : Client} {out : OutRequest} {task : Task}
    (sent : (new crates cfg route auth).proxyResource crates world req =
      .send client out task) :
    ∃ (url : UrlParts) (userinfo fragment path : Str), url.Of raw userinfo fragment ∧
      out.uri = url.scheme ++ "://".toList ++ url.host ++ path ++
        queryText (url.query.filter (· ≠ [])) ∧
      percentBytes false (encode path) =
        some (encode ('/' :: trimMatches (· = '/') url.path)) ∧
      ∀ text, percentBytes false (encode url.rawPath) = some (encode text) →
        url.path = text := by
  rw [Rewriter.rewriteUrl_eq, Option.map_eq_some_iff] at rewrote
  obtain ⟨url, parts, same⟩ := rewrote
  simp only [Prod.mk.injEq] at same
  obtain ⟨-, rfl, rfl, rfl⟩ := same
  obtain ⟨userinfo, fragment, of⟩ := urlParts_of parts
  have found := resourceParts_of_asks crates documented parts root asks
  have query := (path_of_asks crates documented parts root asks).2
  obtain ⟨cut, cut_eq, -, -, uri, -, rfl, -⟩ := (proxyResource_eq_send crates _).mp sent
  rw [isSome, found] at cut_eq
  split at cut_eq
  · cases cut_eq
  · cases cut_eq
    -- An escape in the host, which has no bracket, would not have been sent.
    have kept : escapePath url.host = url.host := by
      apply escapePath_of_noPercent
      intro percent
      rw [ResourceParts.target_eq, List.append_assoc _ _ (queryText _), List.cons_append,
        uris _ _ _ of.scheme percent (escapePath_host of.hostChars)] at uri
      cases uri
    refine ⟨url, userinfo, fragment, '/' :: escapePath url.trimmed, of, ?_, ?_, ?_⟩
    · rw [ResourceParts.target_eq, query, kept, UrlParts.kept]
    · rw [← escapePath_slash, percentBytes_escapePath, UrlParts.trimmed]
    · intro text octets
      have decoded := percentDecode_of_percentBytes octets
      rwa [of.path, Option.some.injEq] at decoded

/-- The target of a signed URL: its fragment and the slashes around its path are gone,
and an escaped slash inside the path is not escaped again. -/
theorem issued_target_signed :
    ∃ (url : UrlParts) (userinfo fragment path : Str),
      url.Of "https://cdn.example.com//a%2Fb/?t=1#x".toList userinfo fragment ∧
      "https://cdn.example.com/a/b?t=1".toList =
        url.scheme ++ "://".toList ++ url.host ++ path ++
          queryText (url.query.filter (· ≠ [])) := by
  have parts : urlParts "https://cdn.example.com//a%2Fb/?t=1#x".toList =
      some {
        scheme := "https".toList
        host := "cdn.example.com".toList
        rawPath := "//a%2Fb/".toList
        path := "//a/b/".toList
        query := some "t=1".toList } := by
    decide +kernel
  obtain ⟨url, userinfo, fragment, path, of, target, -⟩ := @issued_target Reference.crates
      (Reference.config ["ken"] ["cdn.example.com"]) Reference.route (some Reference.store)
      Reference.documented Reference.refusesEscapedHosts _ _ _ _
      (Registry.new ["cdn.example.com".toList]) _ (.inl rfl)
      (by rw [Rewriter.rewriteUrl_eq, parts, Option.map_some])
      ⟨some Reference.store, Reference.disk, Registry.new ["cdn.example.com".toList]⟩ rfl
      (Reference.request .get
      "/_proxy/9v9k6nr-3M8Yf8oREu-yhQ/https/cdn.example.com/a/b" (some "t=1") [])
      ⟨by decide +kernel, by decide +kernel⟩ .default
      ⟨.get, "https://cdn.example.com/a/b?t=1".toList, ⟨[]⟩⟩
      (.resource (Reference.request .get
      "/_proxy/9v9k6nr-3M8Yf8oREu-yhQ/https/cdn.example.com/a/b" (some "t=1") []))
      (by decide +kernel)
  exact ⟨url, userinfo, fragment, path, of, target⟩

/-- The issued URL for a path on `cdn.example.com` sends the upstream another path. -/
def ChangesPath (path sent : String) : Prop :=
  ∃ registry, (new Reference.crates (Reference.config [] []) Reference.route
      none).rewriter.rewriteUrl Registry.empty
        ("http://cdn.example.com".toList ++ path.toList) =
      some (registry, "http://proxemby/_proxy/http/cdn.example.com".toList ++ sent.toList,
        "http".toList, "cdn.example.com".toList) ∧
    (new Reference.crates (Reference.config [] []) Reference.route none).proxyResource
        Reference.crates ⟨none, Reference.disk, registry⟩
        (Reference.request .get ("/_proxy/http/cdn.example.com" ++ sent) none []) =
      .send .default ⟨.get, "http://cdn.example.com".toList ++ sent.toList, ⟨[]⟩⟩
        (.resource (Reference.request .get ("/_proxy/http/cdn.example.com" ++ sent) none [])) ∧
    percentBytes false (encode sent.toList) ≠ percentBytes false (encode path.toList)

/-- Paths that an issued URL does not keep octet by octet: a slash at the end goes, and
an octet that is not UTF-8 is replaced. -/
theorem issued_target_changes_path :
    ChangesPath "/dir/" "/dir" ∧ ChangesPath "/%FF" "/%EF%BF%BD" := by
  have slash : urlParts ("http://cdn.example.com".toList ++ "/dir/".toList) =
      some ⟨"http".toList, "cdn.example.com".toList, "/dir/".toList, "/dir/".toList, none⟩ := by
    decide +kernel
  have octet : urlParts ("http://cdn.example.com".toList ++ "/%FF".toList) =
      some ⟨"http".toList, "cdn.example.com".toList, "/%FF".toList, "/\uFFFD".toList, none⟩ := by
    decide +kernel
  rw [ChangesPath, ChangesPath]
  refine ⟨⟨Registry.empty.allow "cdn.example.com".toList "http".toList, ?_, ?_, ?_⟩,
    ⟨Registry.empty.allow "cdn.example.com".toList "http".toList, ?_, ?_, ?_⟩⟩
  · rw [Rewriter.rewriteUrl_eq, slash, Option.map_some]
    rfl
  · decide +kernel
  · decide +kernel
  · rw [Rewriter.rewriteUrl_eq, octet, Option.map_some]
    rfl
  · decide +kernel
  · decide +kernel

end RouteProxy

end Proxemby
