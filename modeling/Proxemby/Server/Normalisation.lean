import Proxemby.Lib.DotSegments
import Proxemby.Server.Reference

/-!
# Dot segments at the gate

The gate reads the segments of a path as they stand, and passes the path on as it is.
An upstream that takes dot segments out reads another path, which need not be public.
-/

namespace Proxemby

open Text DotSegments

/-- Percent-encoded dots read as dots. -/
def decodeDots : Str → Str
  | [] => []
  | '%' :: '2' :: 'e' :: rest => '.' :: decodeDots rest
  | '%' :: '2' :: 'E' :: rest => '.' :: decodeDots rest
  | c :: rest => c :: decodeDots rest

/-- The path without its dot segments. -/
def normalisedPath (path : Str) : Str := removeDotSegments (decodeDots path)

/-! ## Segments of the gate -/

/-- Segments without the optional base in front. -/
def withoutBase : List Str → List Str
  | [] => []
  | first :: rest =>
      if first = "emby".toList ∨ first = "mediabrowser".toList then rest else first :: rest

/-- The segments of the gate from those of the path. -/
def gateSegments (segments : List Str) : List Str :=
  withoutBase ((trimMatches (· = []) segments).map toAsciiLowercase)

/-- Slashes around a path are empty segments around the others. -/
theorem embyPathSegments_eq (path : Str) :
    embyPathSegments path = gateSegments (path.splitOn '/') := by
  by_cases slashes : ∀ c ∈ path, c = '/'
  · have trimmed : trimMatches (· = '/') path = [] := by
      rw [trimMatches_eq_nil_iff]
      simpa using slashes
    simp [embyPathSegments, trimmed, gateSegments, trimMatches_splitOn_eq_nil slashes, withoutBase]
  · have some : ∃ c ∈ path, c ≠ '/' := by simpa using slashes
    have trimmed : trimMatches (· = '/') path ≠ [] := by
      rw [ne_eq, trimMatches_eq_nil_iff]
      simpa using some
    rw [gateSegments, ← splitOn_trimMatches some]
    simp only [embyPathSegments, if_neg trimmed]
    rfl

/-- The start of a resource path in segments. -/
theorem resourcePrefix_iff (path : Str) :
    resourcePrefix.isPrefixOf path = true ↔
      ∃ rest, rest ≠ [] ∧ path.splitOn '/' = [] :: "_proxy".toList :: rest := by
  rw [List.isPrefixOf_iff_prefix]
  constructor
  · rintro ⟨rest, rfl⟩
    refine ⟨rest.splitOn '/', List.splitOn_ne_nil '/' rest, ?_⟩
    calc (resourcePrefix ++ rest).splitOn '/'
      _ = ([] ++ '/' :: ("_proxy".toList ++ '/' :: rest)).splitOn '/' := rfl
      _ = [] :: "_proxy".toList :: rest.splitOn '/' := by
          rw [List.splitOn_append_cons_self_of_not_mem (by simp),
            List.splitOn_append_cons_self_of_not_mem (by decide)]
  · rintro ⟨rest, notNil, split⟩
    obtain ⟨part, parts, cut, whole⟩ := exists_splitOn '/' path
    rw [split, List.cons.injEq] at cut
    obtain ⟨rfl, rfl⟩ := cut
    cases rest with
    | nil => exact absurd rfl notNil
    | cons segment rest => exact ⟨segment ++ rest.flatMap ('/' :: ·), by rw [whole]; rfl⟩

/-! ## What the gate lets through -/

/-- No path is public and the list of users. -/
theorem publicUsers_not_public {method : Method} {segments : List Str}
    (isPublic : isPublicEmbyPath method segments = true) :
    matchSegments segments ["users", "public"] = false := by
  rw [← Bool.not_eq_true]
  intro users
  obtain rfl : segments = ["users".toList, "public".toList] := by
    simpa [matchSegments_cons, matchSegments_nil] using users
  simp [isPublicEmbyPath, publicPatterns, matchSegments] at isPublic

namespace RouteProxy

variable (crates : Crates) (proxy : RouteProxy)

/-- The gate hands every request for a path on to the upstream, although it has no
token. -/
def ForwardsWithoutToken (method : Method) (path : Str) : Prop :=
  ∀ (world : World) (store : Store) (env : Env) (req : Request) (conn : ConnInfo),
    req.method = method → req.path = path → requestToken req.headers req.query = none →
    proxy.handleWithAuth crates world store env req conn =
      ⟨world, proxy.proxyUpstream crates world.auth req conn none⟩

/-- `proxy_upstream` waits for the upstream, or answers with 502. -/
theorem proxyUpstream_cases (auth : Option Store) (req : Request) (conn : ConnInfo)
    (logout : Option Str) :
    proxy.proxyUpstream crates auth req conn logout = .answer (emptyResponse 502) ∨
      ∃ client out task,
        proxy.proxyUpstream crates auth req conn logout = .send client out (.upstream task) := by
  unfold proxyUpstream
  dsimp only
  split
  · exact .inl rfl
  · exact .inr ⟨_, _, _, rfl⟩

/-- `proxy_resource` waits for the upstream as well, but for a resource, or answers with
400 or 403. -/
theorem proxyResource_cases (world : World) (req : Request) :
    (∃ response, response.status ≠ 502 ∧
      proxy.proxyResource crates world req = .answer response) ∨
      ∃ client out task, proxy.proxyResource crates world req =
        .send client out (.resource task) := by
  unfold proxyResource
  split
  · exact .inl ⟨_, by simp [textResponse], rfl⟩
  · split
    · exact .inl ⟨_, by decide, rfl⟩
    · split
      · exact .inl ⟨_, by decide, rfl⟩
      · dsimp only
        split
        · exact .inl ⟨_, by decide, rfl⟩
        · exact .inr ⟨_, _, _, rfl⟩

/-- A request without a token that the gate hands on is for a public path. -/
theorem isPublic_of_forwarded {world : World} {store : Store} {env : Env} {req : Request}
    {conn : ConnInfo} (tokenless : requestToken req.headers req.query = none)
    (forwarded : proxy.handleWithAuth crates world store env req conn =
      ⟨world, proxy.proxyUpstream crates world.auth req conn none⟩) :
    resourcePrefix.isPrefixOf req.path = false ∧
      isPublicEmbyPath req.method (embyPathSegments req.path) = true := by
  have upstream := proxy.proxyUpstream_cases crates world.auth req conn none
  have flow := congrArg Outcome.flow forwarded
  dsimp only at flow
  rw [← flow, handleWithAuth] at upstream
  dsimp only at upstream
  by_cases inside : resourcePrefix.isPrefixOf req.path = true
  · rw [if_pos inside] at upstream
    rcases proxy.proxyResource_cases crates world req with
      ⟨response, other, answered⟩ | ⟨_, _, _, sent⟩
    · rw [answered] at upstream
      rcases upstream with same | ⟨_, _, _, same⟩
      · cases same
        exact absurd rfl other
      · cases same
    · rw [sent] at upstream
      rcases upstream with same | ⟨_, _, _, same⟩ <;> cases same
  · refine ⟨(Bool.not_eq_true _).mp inside, ?_⟩
    rw [if_neg inside] at upstream
    by_contra closed
    rw [if_neg closed, tokenless] at upstream
    split at upstream
    · rcases upstream with same | ⟨_, _, _, same⟩ <;> cases same
    · rcases upstream with same | ⟨_, _, _, same⟩ <;> cases same

/-- The gate hands on the public paths outside `/_proxy/`. -/
theorem forwardsWithoutToken_iff (method : Method) (path : Str) :
    proxy.ForwardsWithoutToken crates method path ↔
      resourcePrefix.isPrefixOf path = false ∧
        isPublicEmbyPath method (embyPathSegments path) = true := by
  constructor
  · intro forwards
    exact proxy.isPublic_of_forwarded crates rfl
      (forwards ⟨none, fun _ => none, .empty⟩ ⟨none, [], ∅⟩ ⟨[], none, .error [], none⟩
        ⟨method, none, path, none, .empty⟩ ⟨.v4 0, false⟩ rfl rfl rfl)
  · rintro ⟨outside, isPublic⟩ world store env req conn rfl rfl -
    simp [handleWithAuth, outside, isPublic, publicUsers_not_public isPublic]

/-- The segments of a path that its dot segments leave. -/
def leftSegments (path : Str) : List Str := remaining ((decodeDots path).splitOn '/')

/-- The segments that are left make a public path outside `/_proxy/`. -/
structure LeavesPublic (method : Method) (path : Str) : Prop where
  outside : ∀ rest, leftSegments path = [] :: "_proxy".toList :: rest → rest = []
  isPublic : gateSegments (leftSegments path) = [] ∨
    (∃ pattern ∈ publicPatterns, matchSegments (gateSegments (leftSegments path)) pattern = true) ∨
    (gateSegments (leftSegments path)).head? = some "web".toList ∨
    ((method = .get ∨ method = .head) ∧ "images".toList ∈ gateSegments (leftSegments path))

theorem isPublicEmbyPath_iff (method : Method) (segments : List Str) :
    isPublicEmbyPath method segments = true ↔
      segments = [] ∨ (∃ pattern ∈ publicPatterns, matchSegments segments pattern = true) ∨
        segments.head? = some "web".toList ∨
        ((method = .get ∨ method = .head) ∧ "images".toList ∈ segments) := by
  rw [isPublicEmbyPath]
  split
  · next fixed =>
      simp only [Bool.or_eq_true, decide_eq_true_eq, List.any_eq_true] at fixed
      rw [eq_self, true_iff]
      rcases fixed with (empty | pattern) | web
      · exact .inl empty
      · exact .inr (.inl pattern)
      · exact .inr (.inr (.inl web))
  · next other =>
      simp only [Bool.or_eq_true, decide_eq_true_eq, List.any_eq_true, not_or] at other
      obtain ⟨⟨notNil, noPattern⟩, noWeb⟩ := other
      by_cases reads : method = .get ∨ method = .head
      · have kept : ¬(method ≠ .get && method ≠ .head) = true := by
          rcases reads with rfl | rfl <;> decide
        simp only [if_neg kept, List.any_eq_true, decide_eq_true_eq, exists_eq_right, notNil,
          noPattern, noWeb, reads, true_and, false_or]
      · have kept : (method ≠ .get && method ≠ .head) = true := by
          simpa [not_or] using reads
        simp only [if_pos kept, Bool.false_eq_true, notNil, noPattern, noWeb, reads, false_and,
          or_self]

/-- A path that needs no token keeps that without its dot segments exactly when what they
leave is public. -/
theorem normalised_forwards_iff (method : Method) (path : Str) :
    (proxy.ForwardsWithoutToken crates method path →
      proxy.ForwardsWithoutToken crates method (normalisedPath path) ∧
        matchSegments (embyPathSegments (normalisedPath path)) ["users", "public"] = false) ↔
      resourcePrefix.isPrefixOf path = true ∨
        isPublicEmbyPath method (embyPathSegments path) = false ∨ LeavesPublic method path := by
  have split : (normalisedPath path).splitOn '/' = leftSegments path :=
    splitOn_removeDotSegments (decodeDots path)
  have leaves : LeavesPublic method path ↔
      resourcePrefix.isPrefixOf (normalisedPath path) = false ∧
        isPublicEmbyPath method (embyPathSegments (normalisedPath path)) = true := by
    rw [← Bool.not_eq_true, resourcePrefix_iff, embyPathSegments_eq, split, isPublicEmbyPath_iff]
    constructor
    · rintro ⟨outside, isPublic⟩
      exact ⟨fun ⟨rest, notNil, same⟩ => notNil (outside rest same), isPublic⟩
    · rintro ⟨outside, isPublic⟩
      refine ⟨?_, isPublic⟩
      intro rest same
      by_contra notNil
      exact outside ⟨rest, notNil, same⟩
  rw [forwardsWithoutToken_iff, forwardsWithoutToken_iff, leaves]
  constructor
  · intro stable
    by_cases inside : resourcePrefix.isPrefixOf path = true
    · exact .inl inside
    · by_cases isPublic : isPublicEmbyPath method (embyPathSegments path) = true
      · exact .inr (.inr (stable ⟨(Bool.not_eq_true _).mp inside, isPublic⟩).1)
      · exact .inr (.inl ((Bool.not_eq_true _).mp isPublic))
  · rintro (inside | notPublic | stays) ⟨outside, isPublic⟩
    · rw [inside] at outside
      cases outside
    · rw [notPublic] at isPublic
      cases isPublic
    · exact ⟨stays, publicUsers_not_public stays.2⟩

/-- A `..` takes the `web` away, and leaves a path for which the gate asks for a token, or
the list of users. -/
theorem parent_of_web_forwards :
    (RouteProxy.new Reference.crates (Reference.config ["ken"] []) Reference.route
        (some Reference.store)).ForwardsWithoutToken Reference.crates .get
          "/web/../Items".toList ∧
      normalisedPath "/web/../Items".toList = "/Items".toList ∧
      ¬(RouteProxy.new Reference.crates (Reference.config ["ken"] []) Reference.route
        (some Reference.store)).ForwardsWithoutToken Reference.crates .get "/Items".toList ∧
      (RouteProxy.new Reference.crates (Reference.config ["ken"] []) Reference.route
        (some Reference.store)).ForwardsWithoutToken Reference.crates .get
          "/web/%2e%2e/Users/Public".toList ∧
      normalisedPath "/web/%2e%2e/Users/Public".toList = "/Users/Public".toList ∧
      matchSegments (embyPathSegments "/Users/Public".toList) ["users", "public"] = true := by
  simp only [forwardsWithoutToken_iff]
  decide +kernel

end RouteProxy

end Proxemby
