import Proxemby.Server.Reference
import Proxemby.Stats.Flush

/-!
# Hosts and routes

`parse_routes` of `src/config.rs`, and how `Server::with_stats` and `Server::handle` of
`src/server/mod.rs` get from a host to a route and its counters.
-/

namespace Proxemby

open Text

/-! ## Configured routes -/

/-- A route as it is written in the configuration. -/
structure RouteValues where
  upstreamUrl : Str
  publicUrl : Str
  acmeDomain : Str
  deriving DecidableEq

/-- A route and the domain of its certificate. -/
structure ParsedRoute extends Route where
  acmeDomain : Str
  deriving DecidableEq

def parseRequiredUrl (raw name : Str) : Except Str HttpUrl :=
  let raw := trim raw
  if raw = [] then .error (name ++ " is required".toList)
  else
    match HttpUrl.parse raw with
    | .error e => .error (name ++ " is invalid: ".toList ++ e)
    | .ok url =>
        if url.scheme ≠ "http".toList ∧ url.scheme ≠ "https".toList then
          .error (name ++ " must use http or https".toList)
        else if url.host = [] then .error (name ++ " must include a host".toList)
        else .ok url

/-- The locals of the loop of `parse_routes`. -/
structure RouteScan where
  routes : List ParsedRoute
  acmeDomains : List Str
  seenPublicHosts : Finset Str
  seenAcmeDomains : Finset Str

/-- The key of a route: its lower-cased public hostname. -/
def Route.key (route : Route) : Str := toAsciiLowercase route.publicUrl.hostname

section Parse

variable (quote : Str → Str)

/-- One turn of the loop; `quote` is the debug form of a string. -/
def RouteScan.next (scan : RouteScan) (i : Nat) (value : RouteValues) : Except Str RouteScan :=
  let name := "route ".toList ++ (Nat.repr (i + 1)).toList
  match parseRequiredUrl value.upstreamUrl (name ++ " upstream URL".toList) with
  | .error e => .error e
  | .ok upstreamUrl =>
      match parseRequiredUrl value.publicUrl (name ++ " public URL".toList) with
      | .error e => .error e
      | .ok publicUrl =>
          let publicHost := toAsciiLowercase publicUrl.hostname
          if publicHost ∈ scan.seenPublicHosts then
            .error ("duplicate route public host ".toList ++ quote publicHost)
          else
            let acmeDomain := trim value.acmeDomain
            let acmeDomain :=
              toAsciiLowercase (if acmeDomain = [] then publicHost else acmeDomain)
            .ok {
              routes := scan.routes ++ [{ upstreamUrl, publicUrl, acmeDomain }]
              acmeDomains :=
                if acmeDomain ∈ scan.seenAcmeDomains then scan.acmeDomains
                else scan.acmeDomains ++ [acmeDomain]
              seenPublicHosts := insert publicHost scan.seenPublicHosts
              seenAcmeDomains := insert acmeDomain scan.seenAcmeDomains }

def scanRoutes (scan : RouteScan) (i : Nat) : List RouteValues → Except Str RouteScan
  | [] => .ok scan
  | value :: values =>
      match scan.next quote i value with
      | .error e => .error e
      | .ok scan => scanRoutes scan (i + 1) values

def parseRoutes (values : List RouteValues) : Except Str (List ParsedRoute × List Str) :=
  if values = [] then .error "at least one route is required".toList
  else
    match scanRoutes quote ⟨[], [], ∅, ∅⟩ 0 values with
    | .error e => .error e
    | .ok scan => .ok (scan.routes, scan.acmeDomains)

end Parse

/-- The host of a parsed URL has no white space and no control character. -/
theorem HttpUrl.parse_host {raw : Str} {url : HttpUrl} (parsed : HttpUrl.parse raw = .ok url) :
    ∀ c ∈ url.host, isWhitespace c = false ∧ isControl c = false := by
  rw [HttpUrl.parse] at parsed
  split at parsed
  · cases parsed
  · dsimp only at parsed
    split at parsed
    · cases parsed
    · next clean =>
        cases parsed
        intro c member
        simp only [Bool.or_eq_true, List.any_eq_true, not_or, not_exists, not_and] at clean
        simpa using clean.1 c member

/-- The host of a parsed URL ends where its path begins. -/
theorem HttpUrl.parse_path {raw : Str} {url : HttpUrl} (parsed : HttpUrl.parse raw = .ok url) :
    '/' ∉ url.host ∧ (url.path = [] ∨ ∃ rest, url.path = '/' :: rest) := by
  rw [HttpUrl.parse] at parsed
  split at parsed
  · cases parsed
  · dsimp only at parsed
    split at parsed
    · cases parsed
    · cases parsed
      refine ⟨fun member => ?_, dropWhile_ne_cases '/' _⟩
      have inAuthority := (List.rtakeWhile_suffix _ _).subset member
      simpa using List.mem_takeWhile_imp inAuthority

/-- A required URL is parsed, and has an HTTP scheme and a host as it is written. -/
theorem parseRequiredUrl_ok {raw name : Str} {url : HttpUrl}
    (parsed : parseRequiredUrl raw name = .ok url) :
    HttpUrl.parse (trim raw) = .ok url ∧ isHttpScheme url.scheme = true ∧ url.host ≠ [] := by
  rw [parseRequiredUrl] at parsed
  split at parsed
  · cases parsed
  · split at parsed
    · cases parsed
    · next found =>
        split at parsed
        · cases parsed
        · next scheme =>
            split at parsed
            · cases parsed
            · next host =>
                cases parsed
                refine ⟨found, ?_, host⟩
                simpa [isHttpScheme, or_iff_not_imp_left] using scheme

/-- The route is what the loop makes of the value. -/
structure RouteValues.Yields (value : RouteValues) (route : ParsedRoute) : Prop where
  publicUrl : HttpUrl.parse (trim value.publicUrl) = .ok route.publicUrl
  host : route.publicUrl.host ≠ []
  acmeDomain : route.acmeDomain =
    toAsciiLowercase (if trim value.acmeDomain = [] then route.key else trim value.acmeDomain)

variable {quote : Str → Str}

/-- A turn of the loop adds a route with a new key, and its domain unless that is known. -/
theorem RouteScan.next_cases {scan scan' : RouteScan} {i : Nat} {value : RouteValues}
    (added : scan.next quote i value = .ok scan') :
    ∃ route : ParsedRoute, value.Yields route ∧ route.key ∉ scan.seenPublicHosts ∧
      scan' = {
        routes := scan.routes ++ [route]
        acmeDomains :=
          if route.acmeDomain ∈ scan.seenAcmeDomains then scan.acmeDomains
          else scan.acmeDomains ++ [route.acmeDomain]
        seenPublicHosts := insert route.key scan.seenPublicHosts
        seenAcmeDomains := insert route.acmeDomain scan.seenAcmeDomains } := by
  rw [RouteScan.next] at added
  split at added
  · cases added
  · split at added
    · cases added
    · next publicUrl parsed =>
        dsimp only at added
        split at added
        · cases added
        · next fresh =>
            cases added
            obtain ⟨found, -, host⟩ := parseRequiredUrl_ok parsed
            exact ⟨⟨⟨_, publicUrl⟩, _⟩, ⟨found, host, rfl⟩, fresh, rfl⟩

/-- What holds of the routes at every turn of the loop: no two have the same key. -/
structure RouteScan.Sound (scan : RouteScan) : Prop where
  seen : ∀ route ∈ scan.routes, route.key ∈ scan.seenPublicHosts
  distinct : (scan.routes.map fun route => route.key).Nodup

theorem RouteScan.Sound.next {scan scan' : RouteScan} (sound : scan.Sound) {i : Nat}
    {value : RouteValues} (added : scan.next quote i value = .ok scan') : scan'.Sound := by
  obtain ⟨last, -, fresh, rfl⟩ := RouteScan.next_cases added
  refine ⟨?_, ?_⟩
  · intro route member
    rcases List.mem_append.mp member with old | new
    · exact Finset.mem_insert_of_mem (sound.seen route old)
    · rw [List.mem_singleton.mp new]
      exact Finset.mem_insert_self _ _
  · rw [List.map_append, List.nodup_append]
    refine ⟨sound.distinct, List.nodup_singleton _, ?_⟩
    intro key old other new
    obtain ⟨route, member, rfl⟩ := List.mem_map.mp old
    rw [List.mem_singleton.mp new]
    exact ne_of_mem_of_not_mem (sound.seen route member) fresh

/-- What the turns of the loop preserve holds at its end, and every turn adds the route of its
value. -/
theorem scanRoutes_induction {Holds : RouteScan → Prop}
    (turn : ∀ {scan scan' : RouteScan} {i : Nat} {value : RouteValues},
      Holds scan → scan.next quote i value = .ok scan' → Holds scan')
    {scan scan' : RouteScan} (holds : Holds scan) {i : Nat} {values : List RouteValues}
    (scanned : scanRoutes quote scan i values = .ok scan') :
    Holds scan' ∧ ∃ routes, scan'.routes = scan.routes ++ routes ∧
      List.Forall₂ RouteValues.Yields values routes := by
  induction values generalizing scan i with
  | nil =>
      rw [scanRoutes, Except.ok.injEq] at scanned
      exact ⟨scanned ▸ holds, [], by rw [scanned, List.append_nil], .nil⟩
  | cons value values ih =>
      rw [scanRoutes] at scanned
      split at scanned
      · cases scanned
      · next added =>
          obtain ⟨holds', routes, grown, yields⟩ := ih (turn holds added) scanned
          obtain ⟨route, first, -, rfl⟩ := RouteScan.next_cases added
          exact ⟨holds', route :: routes, by simp [grown], .cons first yields⟩

/-- The same for accepted routes: they are those of the values, one for one. -/
theorem parseRoutes_induction (Holds : RouteScan → Prop) (start : Holds ⟨[], [], ∅, ∅⟩)
    (turn : ∀ {scan scan' : RouteScan} {i : Nat} {value : RouteValues},
      Holds scan → scan.next quote i value = .ok scan' → Holds scan')
    {values : List RouteValues} {routes : List ParsedRoute} {domains : List Str}
    (accepted : parseRoutes quote values = .ok (routes, domains)) :
    List.Forall₂ RouteValues.Yields values routes ∧
      ∃ scan, Holds scan ∧ scan.routes = routes ∧ scan.acmeDomains = domains := by
  rw [parseRoutes] at accepted
  split at accepted
  · cases accepted
  · split at accepted
    · cases accepted
    · next scan scanned =>
        cases accepted
        obtain ⟨holds, added, whole, yields⟩ := scanRoutes_induction turn start scanned
        rw [List.nil_append] at whole
        exact ⟨whole ▸ yields, scan, holds, rfl, rfl⟩

theorem exists_left_of_forall₂ {Left Right : Type} {Related : Left → Right → Prop}
    {lefts : List Left} {rights : List Right} (related : List.Forall₂ Related lefts rights)
    {right : Right} (member : right ∈ rights) : ∃ left ∈ lefts, Related left right := by
  induction related with
  | nil => cases member
  | @cons first _ _ _ here rest ih =>
      rcases List.mem_cons.mp member with rfl | later
      · exact ⟨first, List.mem_cons_self, here⟩
      · obtain ⟨left, inLefts, found⟩ := ih later
        exact ⟨left, List.mem_cons_of_mem _ inLefts, found⟩

section Accepted

variable {values : List RouteValues} {routes : List ParsedRoute} {domains : List Str}
  (accepted : parseRoutes quote values = .ok (routes, domains))

include accepted

/-- Accepted routes are those of the values, one for one. -/
theorem parseRoutes_yields : List.Forall₂ RouteValues.Yields values routes :=
  (parseRoutes_induction (fun _ => True) trivial (fun _ _ => trivial) accepted).1

theorem exists_yields {route : ParsedRoute} (member : route ∈ routes) :
    ∃ value ∈ values, value.Yields route :=
  exists_left_of_forall₂ (parseRoutes_yields accepted) member

theorem exists_yielded {value : RouteValues} (member : value ∈ values) :
    ∃ route ∈ routes, value.Yields route :=
  exists_left_of_forall₂ (parseRoutes_yields accepted).flip member

/-- Accepted routes have different keys, and no white space in their hosts. -/
theorem parseRoutes_sound : (routes.map fun route => route.key).Nodup ∧
    ∀ route ∈ routes, ∀ c ∈ route.publicUrl.host, isWhitespace c = false := by
  refine ⟨?_, fun route member => ?_⟩
  · obtain ⟨-, scan, sound, rfl, -⟩ := parseRoutes_induction RouteScan.Sound ⟨by simp, by simp⟩
      (fun sound added => sound.next added) accepted
    exact sound.distinct
  · obtain ⟨value, -, yields⟩ := exists_yields accepted member
    exact fun c inside => (HttpUrl.parse_host yields.publicUrl c inside).1

end Accepted

/-! ## Forms of a host -/

/-- Nothing, or a colon and the digits of a port. -/
def IsPort (port : Str) : Prop :=
  port = [] ∨ ∃ digits, port = ':' :: digits ∧ ∀ c ∈ digits, c.isDigit = true

/-- The ways to write a host with a hostname: a name, or an IPv6 literal in brackets, each
with or without a port. -/
inductive HostForm : Str → Str → Prop where
  | name {name port : Str} (plain : ∀ c ∈ name, c ≠ ':' ∧ c ≠ '[' ∧ c ≠ ']')
      (isPort : IsPort port) : HostForm (name ++ port) name
  | literal {inner port : Str} (closed : ']' ∉ inner) (isPort : IsPort port) :
      HostForm ('[' :: inner ++ ']' :: port) inner

theorem HostForm.mem_host {host name : Str} (form : HostForm host name) {c : Char}
    (member : c ∈ name) : c ∈ host := by
  cases form with
  | name plain isPort => exact List.mem_append_left _ member
  | literal closed isPort => exact List.mem_append_left _ (List.mem_cons_of_mem _ member)

theorem isWhitespace_eq_false {c : Char} (low : 0x20 < c.toNat) (high : c.toNat < 0x7F) :
    isWhitespace c = false := by
  simp [isWhitespace]
  omega

theorem isWhitespace_of_isDigit {c : Char} (digit : c.isDigit = true) :
    isWhitespace c = false := by
  have range : 48 ≤ c.toNat ∧ c.toNat ≤ 57 := by
    simpa [Char.isDigit, UInt32.le_iff_toNat_le] using digit
  exact isWhitespace_eq_false (by omega) (by omega)

/-- Letter case does not matter for white space. -/
theorem isWhitespace_toLower (c : Char) : isWhitespace c.toLower = isWhitespace c := by
  by_cases upper : c.val ≥ 'A'.val ∧ c.val ≤ 'Z'.val
  · have range : 65 ≤ c.toNat ∧ c.toNat ≤ 90 := by
      simpa [UInt32.le_iff_toNat_le] using upper
    have small : c.toLower = _ := dif_pos upper
    have lower : c.toLower.toNat = c.toNat + 32 := by
      rw [small]
      change (c.val + 32).toNat = c.val.toNat + 32
      rw [UInt32.toNat_add]
      exact Nat.mod_eq_of_lt (by change c.toNat + 32 < _; omega)
    rw [isWhitespace_eq_false (by omega) (by omega), isWhitespace_eq_false (by omega) (by omega)]
  · have same : c.toLower = c := dif_neg upper
    rw [same]

theorem isWhitespace_of_port {port : Str} (isPort : IsPort port) :
    ∀ c ∈ port, isWhitespace c = false := by
  rcases isPort with rfl | ⟨digits, rfl, digit⟩
  · simp
  · intro c member
    rcases List.mem_cons.mp member with rfl | later
    · decide
    · exact isWhitespace_of_isDigit (digit c later)

/-- A host without white space has its hostname, whatever the port. -/
theorem hostname_of_form {host name : Str} (form : HostForm host name)
    (clean : ∀ c ∈ name, isWhitespace c = false) : hostname host = name := by
  have trimmed : trim host = host := by
    apply trimMatches_self
    cases form with
    | name plain isPort =>
        intro c member
        rcases List.mem_append.mp member with inName | inPort
        · exact clean c inName
        · exact isWhitespace_of_port isPort c inPort
    | literal closed isPort =>
        intro c member
        rcases List.mem_append.mp member with front | back
        · rcases List.mem_cons.mp front with rfl | inName
          · decide
          · exact clean c inName
        · rcases List.mem_cons.mp back with rfl | inPort
          · decide
          · exact isWhitespace_of_port isPort c inPort
  rw [hostname, trimmed]
  cases form with
  | @literal _ port closed isPort =>
      have strip : stripPrefix ['['] ('[' :: name ++ ']' :: port) = some (name ++ ']' :: port) :=
        stripPrefix_append ['['] (name ++ ']' :: port)
      simp only [strip, splitOnce_append closed]
  | @name _ port plain isPort =>
      have noColon : ':' ∉ name := fun member => (plain ':' member).1 rfl
      have strip : stripPrefix ['['] (name ++ port) = none := by
        cases bracket : stripPrefix ['['] (name ++ port) with
        | none => rfl
        | some rest =>
            have whole := stripPrefix_eq_some.mp bracket
            have head : '[' ∈ name ++ port := by simp [whole]
            rcases List.mem_append.mp head with inName | inPort
            · exact absurd rfl (plain '[' inName).2.1
            · rcases isPort with rfl | ⟨digits, rfl, digit⟩
              · cases inPort
              · rcases List.mem_cons.mp inPort with same | later
                · exact absurd same (by decide)
                · exact absurd (digit '[' later) (by decide)
      rcases isPort with rfl | ⟨digits, rfl, digit⟩
      · rw [List.append_nil] at strip ⊢
        simp only [strip, rsplitOnce_eq_none.mpr noColon]
      · have fresh : ':' ∉ digits := fun member => absurd (digit ':' member) (by decide)
        simp [strip, rsplitOnce_append fresh, noColon]

/-- A hostname is made of what is in the host. -/
theorem mem_of_mem_hostname {host : Str} {c : Char} (member : c ∈ hostname host) : c ∈ host := by
  have inside : c ∈ trim host → c ∈ host := fun inTrim =>
    (trimMatches_sublist isWhitespace host).subset inTrim
  apply inside
  rw [hostname] at member
  split at member
  · next rest bracket =>
      rw [stripPrefix_eq_some.mp bracket]
      split at member
      · next inner after cut =>
          rw [(splitOnce_eq_some.mp cut).2]
          simp [member]
      · exact List.mem_append_right _ member
  · split at member
    · next name after cut =>
        split at member
        · exact member
        · rw [(rsplitOnce_eq_some.mp cut).2]
          exact List.mem_append_left _ member
    · exact member

/-! ## The map of the server -/

/-- The statistics name of each route. -/
def routeNames (cfg : Config) : List Str := cfg.routes.map Route.key

section Map

variable (crates : Crates) (cfg : Config) (auth : Option Store) {names : List Str}

/-- A route under its key, with the counters it adds to; `none` where the source expects
statistics of the same routes and there are none. -/
def countedRoute (stats : Option (Stats names)) (route : Route) :
    Option (Str × RouteProxy × Option (Fin names.length)) :=
  let proxy := RouteProxy.new crates cfg route auth
  match stats with
  | none => some (route.key, proxy, none)
  | some _ => (Stats.route names route.key).map fun index => (route.key, proxy, some index)

/-- Collect entries into a map: of several with one key the last one stays. -/
def collect {Value : Type} (entries : List (Str × Value)) : Finmap fun _ : Str => Value :=
  entries.foldl (fun map entry => map.insert entry.1 entry.2) ∅

/-- The map of `Server::with_stats`. -/
def withCounters (stats : Option (Stats names)) :
    Option (Finmap fun _ : Str => RouteProxy × Option (Fin names.length)) :=
  (cfg.routes.mapM (countedRoute crates cfg auth stats)).map collect

end Map

section Collect

variable {Value : Type}

theorem collect_concat (entries : List (Str × Value)) (entry : Str × Value) :
    collect (entries ++ [entry]) = (collect entries).insert entry.1 entry.2 := by
  rw [collect, List.foldl_append]
  rfl

theorem keys_collect (entries : List (Str × Value)) :
    (collect entries).keys = (entries.map Prod.fst).toFinset := by
  induction entries using List.reverseRecOn with
  | nil => rfl
  | append_singleton entries entry ih =>
      ext key
      have known : key ∈ (collect entries).keys ↔ key ∈ (entries.map Prod.fst).toFinset := by
        rw [ih]
      rw [Finmap.mem_keys] at known
      rw [collect_concat, Finmap.mem_keys, Finmap.mem_insert, known]
      simp

theorem lookup_collect {entries : List (Str × Value)}
    (distinct : (entries.map Prod.fst).Nodup) {entry : Str × Value} (member : entry ∈ entries) :
    (collect entries).lookup entry.1 = some entry.2 := by
  induction entries using List.reverseRecOn with
  | nil => cases member
  | append_singleton entries last ih =>
      rw [List.map_append, List.nodup_append] at distinct
      obtain ⟨earlier, -, apart⟩ := distinct
      rw [collect_concat]
      rcases List.mem_append.mp member with old | new
      · have other : entry.1 ≠ last.1 :=
          apart entry.1 (List.mem_map_of_mem old) last.1 List.mem_cons_self
        rw [Finmap.lookup_insert_of_ne _ other, ih earlier old]
      · rw [List.mem_singleton.mp new, Finmap.lookup_insert]

/-- A map may be collected before or after its values are mapped. -/
theorem lookup_collect_map {Image : Type} (image : Value → Image) (entries : List (Str × Value))
    (key : Str) :
    ((collect entries).lookup key).map image =
      (collect (entries.map fun entry => (entry.1, image entry.2))).lookup key := by
  induction entries using List.reverseRecOn with
  | nil => rfl
  | append_singleton entries last ih =>
      rw [List.map_append, List.map_singleton, collect_concat, collect_concat]
      by_cases same : key = last.1
      · rw [same, Finmap.lookup_insert, Finmap.lookup_insert, Option.map_some]
      · rw [Finmap.lookup_insert_of_ne _ same, Finmap.lookup_insert_of_ne _ same, ih]

theorem lookup_collect_eq_none {entries : List (Str × Value)} {key : Str} :
    (collect entries).lookup key = none ↔ key ∉ entries.map Prod.fst := by
  rw [Finmap.lookup_eq_none, ← Finmap.mem_keys, keys_collect, List.mem_toFinset]

end Collect

section Select

variable {crates : Crates} {cfg : Config} {auth : Option Store}

theorem withStats_eq_collect :
    (Server.withStats crates cfg auth).routes =
      collect (cfg.routes.map fun route => (route.key, RouteProxy.new crates cfg route auth)) := by
  rw [collect, List.foldl_map]
  rfl

/-- A request for a key that no route has is not found. -/
theorem step_unrouted {req : Request} (other : ∀ route ∈ cfg.routes, route.key ≠ Server.hostKey req)
    (state : State) (conn : ConnInfo) (env : Env) :
    (Server.withStats crates cfg auth).step crates state (.request req conn env) =
      (state, [.answered Server.notFound]) := by
  have absent : (Server.withStats crates cfg auth).routes.lookup (Server.hostKey req) = none := by
    rw [withStats_eq_collect, lookup_collect_eq_none, List.map_map]
    intro member
    obtain ⟨route, inRoutes, same⟩ := List.mem_map.mp member
    exact other route inRoutes same
  simp only [Server.step, absent]

/-- The counters of a route are those at its place. -/
theorem route_routeNames (distinct : (routeNames cfg).Nodup) (i : Fin (routeNames cfg).length) :
    Stats.route (routeNames cfg) ((routeNames cfg).get i) = some i := by
  cases found : Stats.route (routeNames cfg) ((routeNames cfg).get i) with
  | none =>
      have none := List.find?_eq_none.mp found i (List.mem_finRange i)
      simp at none
  | some j =>
      have same : (routeNames cfg).get j = (routeNames cfg).get i := by
        simpa using List.find?_some found
      rw [distinct.injective_get same]

theorem mapM_eq_some {Item Value : Type} {read : Item → Option Value} {value : Item → Value}
    {items : List Item} (each : ∀ item ∈ items, read item = some (value item)) :
    items.mapM read = some (items.map value) := by
  induction items with
  | nil => rfl
  | cons item items ih =>
      obtain ⟨here, rest⟩ := List.forall_mem_cons.mp each
      simp [here, ih rest]

/-- The place of a route among the statistics names. -/
def statsIndex (i : Fin cfg.routes.length) : Fin (routeNames cfg).length :=
  i.cast (by rw [routeNames, List.length_map])

theorem get_statsIndex (i : Fin cfg.routes.length) :
    (routeNames cfg).get (statsIndex i) = (cfg.routes.get i).key := by
  simp only [routeNames, statsIndex, List.get_eq_getElem, List.getElem_map]
  rfl

variable (crates auth) in
/-- With different keys, the server starts, and finds every route with its counters. -/
theorem withCounters_spec (distinct : (routeNames cfg).Nodup)
    (stats : Option (Stats (routeNames cfg))) :
    ∃ routes, withCounters crates cfg auth stats = some routes ∧
      (∀ key, (routes.lookup key).map Prod.fst =
        (Server.withStats crates cfg auth).routes.lookup key) ∧
      routes.keys = (routeNames cfg).toFinset ∧
      ∀ i, routes.lookup (cfg.routes.get i).key =
        some (RouteProxy.new crates cfg (cfg.routes.get i) auth,
          stats.map fun _ => statsIndex i) := by
  have counters (i : Fin cfg.routes.length) :
      Stats.route (routeNames cfg) (cfg.routes.get i).key = some (statsIndex i) := by
    rw [← get_statsIndex, route_routeNames distinct]
  have each : ∀ route ∈ cfg.routes, countedRoute crates cfg auth stats route =
      some (route.key, RouteProxy.new crates cfg route auth,
        stats.bind fun _ => Stats.route (routeNames cfg) route.key) := by
    intro route member
    obtain ⟨i, rfl⟩ := List.mem_iff_get.mp member
    cases stats with
    | none => rfl
    | some stats => simp only [countedRoute, counters, Option.map_some, Option.bind_some]
  have keys : (cfg.routes.map fun route => (route.key, RouteProxy.new crates cfg route auth,
      stats.bind fun _ => Stats.route (routeNames cfg) route.key)).map Prod.fst =
        routeNames cfg := by
    rw [List.map_map]
    rfl
  refine ⟨_, by rw [withCounters, mapM_eq_some each, Option.map_some], ?_, ?_, ?_⟩
  · intro key
    rw [lookup_collect_map, withStats_eq_collect, List.map_map]
    rfl
  · rw [keys_collect, keys]
  · intro i
    have member := List.mem_map_of_mem (f := fun route : Route =>
      (route.key, RouteProxy.new crates cfg route auth,
        stats.bind fun _ => Stats.route (routeNames cfg) route.key)) (cfg.routes.get_mem i)
    rw [lookup_collect (by rw [keys]; exact distinct) member]
    cases stats with
    | none => rfl
    | some stats => rw [Option.bind_some, counters]; rfl

/-- Equality up to ASCII case keeps a name free of white space. -/
theorem isWhitespace_of_toAsciiLowercase {left right : Str}
    (same : toAsciiLowercase left = toAsciiLowercase right)
    (clean : ∀ c ∈ right, isWhitespace c = false) : ∀ c ∈ left, isWhitespace c = false := by
  intro c member
  have lower : c.toLower ∈ toAsciiLowercase right := by
    rw [← same]
    exact List.mem_map_of_mem member
  obtain ⟨d, inRight, equal⟩ := List.mem_map.mp lower
  rw [← isWhitespace_toLower, ← equal, isWhitespace_toLower]
  exact clean d inRight

/-- Host routing is exact for every accepted list of routes: the server starts with the
statistics of those routes, its map has one entry for each of them, a request whose host is
a form of the public hostname of a route gets that route and its counters, and a request
with another hostname is not found. -/
theorem host_routing_exact {quote : Str → Str} {values : List RouteValues}
    {parsed : List ParsedRoute} {domains : List Str}
    (accepted : parseRoutes quote values = .ok (parsed, domains))
    (configured : cfg.routes = parsed.map ParsedRoute.toRoute)
    (stats : Option (Stats (routeNames cfg))) :
    ∃ routes, withCounters crates cfg auth stats = some routes ∧
      (∀ key, (routes.lookup key).map Prod.fst =
        (Server.withStats crates cfg auth).routes.lookup key) ∧
      routes.keys.card = cfg.routes.length ∧
      (∀ route ∈ cfg.routes, ∀ name, HostForm route.publicUrl.host name →
        route.publicUrl.hostname = name) ∧
      (∀ (i : Fin cfg.routes.length) req name, HostForm (requestHost req) name →
        toAsciiLowercase name = toAsciiLowercase (cfg.routes.get i).publicUrl.hostname →
        routes.lookup (Server.hostKey req) =
          some (RouteProxy.new crates cfg (cfg.routes.get i) auth,
            stats.map fun _ => statsIndex i)) ∧
      ∀ req, (∀ route ∈ cfg.routes, toAsciiLowercase (hostname (requestHost req)) ≠
          toAsciiLowercase route.publicUrl.hostname) →
        ∀ state conn env, (Server.withStats crates cfg auth).step crates state
          (.request req conn env) = (state, [.answered Server.notFound]) := by
  obtain ⟨distinct, hosts⟩ := parseRoutes_sound accepted
  have names : routeNames cfg = parsed.map fun route => route.key := by
    rw [routeNames, configured, List.map_map]
    rfl
  rw [← names] at distinct
  have clean : ∀ route ∈ cfg.routes, ∀ c ∈ route.publicUrl.host, isWhitespace c = false := by
    rw [configured]
    intro route member
    obtain ⟨parsedRoute, inParsed, rfl⟩ := List.mem_map.mp member
    exact hosts parsedRoute inParsed
  obtain ⟨routes, started, server, keys, entries⟩ :=
    withCounters_spec crates auth distinct stats
  refine ⟨routes, started, server, ?_, ?_, ?_, ?_⟩
  · rw [keys, List.toFinset_card_of_nodup distinct, routeNames, List.length_map]
  · intro route member name form
    exact hostname_of_form form fun c inName => clean route member c (form.mem_host inName)
  · intro i req name form same
    have route := cfg.routes.get_mem i
    have plain := isWhitespace_of_toAsciiLowercase same fun c inName =>
      clean _ route c (mem_of_mem_hostname inName)
    rw [Server.hostKey, hostname_of_form form plain, same]
    exact entries i
  · intro req other state conn env
    exact step_unrouted (fun route inRoutes same => other route inRoutes same.symm) state conn env

end Select

/-- Two routes, one of them with an IPv6 literal: a request to each, in capitals and with other
ports, and a request to neither. -/
theorem host_routing_exact_literal :
    let literal : Route := ⟨⟨"http".toList, "jellyfin:8096".toList, [], []⟩,
      ⟨"http".toList, "[2001:db8::1]:8080".toList, [], []⟩⟩
    let cfg := { Reference.config [] [] with routes := [Reference.route, literal] }
    let asking (host : String) :=
      { Reference.request .get "/" none [] with authority := some host.toList }
    ∃ routes, withCounters Reference.crates cfg none
        (some (.fresh (routeNames cfg) none [] ∅)) = some routes ∧
      routes.keys.card = 2 ∧
      routes.lookup (Server.hostKey (asking "PROXEMBY:8080")) =
        some (RouteProxy.new Reference.crates cfg Reference.route none, some ⟨0, by decide⟩) ∧
      routes.lookup (Server.hostKey (asking "[2001:DB8::1]")) =
        some (RouteProxy.new Reference.crates cfg literal none, some ⟨1, by decide⟩) ∧
      ∀ state conn env, (Server.withStats Reference.crates cfg none).step Reference.crates state
        (.request (asking "proxemby.example.com") conn env) =
          (state, [.answered Server.notFound]) := by
  intro literal cfg asking
  have accepted : parseRoutes id
      [⟨"http://emby:8096".toList, " http://proxemby".toList, []⟩,
        ⟨"http://jellyfin:8096".toList, "http://[2001:db8::1]:8080".toList, []⟩] =
        .ok ([⟨Reference.route, "proxemby".toList⟩, ⟨literal, "2001:db8::1".toList⟩],
          ["proxemby".toList, "2001:db8::1".toList]) := by
    rfl
  obtain ⟨routes, started, -, size, -, found, missing⟩ := @host_routing_exact Reference.crates cfg
    none id _ _ _ accepted rfl (some (.fresh (routeNames cfg) none [] ∅))
  have named : HostForm (requestHost (asking "PROXEMBY:8080")) "PROXEMBY".toList :=
    @HostForm.name "PROXEMBY".toList ":8080".toList (by decide)
      (.inr ⟨"8080".toList, rfl, by decide⟩)
  have bracketed : HostForm (requestHost (asking "[2001:DB8::1]")) "2001:DB8::1".toList :=
    @HostForm.literal "2001:DB8::1".toList [] (by decide) (.inl rfl)
  refine ⟨routes, started, size, found ⟨0, by decide⟩ _ _ named (by decide),
    found ⟨1, by decide⟩ _ _ bracketed (by decide), missing _ ?_⟩
  decide +kernel

end Proxemby
