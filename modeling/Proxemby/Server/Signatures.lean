import Mathlib.Data.Set.Function
import Proxemby.Server.Issued
import Proxemby.Server.Routing

/-!
# What a signature is bound to

`Store::sign` hashes a route key, a scheme and a host, each with a zero octet behind it.
The keys come from accepted routes and the schemes are fixed words, so only the last part
can contain that octet, and the octets determine the parts.
-/

namespace Proxemby

open Text Utf8

/-- The octets that are hashed for the given parts. -/
def Store.message (parts : List Str) : Bytes := terminated 0 (parts.map encode)

theorem Store.mac_eq (crates : StoreCrates) (secret : Bytes) (parts : List Str) :
    mac crates secret parts = crates.hmacSha256 secret (message parts) := by
  rw [mac, message, terminated, List.flatMap_map]

/-- A signature verifies for other parts when the truncated MACs agree. -/
theorem Store.verify_sign_iff {crates : StoreCrates} (documented : crates.Documented)
    (store : Store) (parts parts' : List Str) :
    store.verify crates (store.sign crates parts) parts' = true ↔
      (crates.hmacSha256 store.secret (message parts')).take 16 =
        (crates.hmacSha256 store.secret (message parts)).take 16 := by
  have length : ((crates.hmacSha256 store.secret (message parts)).take 16).length = 16 := by
    rw [List.length_take, documented.hmac_length]
    rfl
  rw [verify, sign, documented.urlSafe_decode, mac_eq, mac_eq]
  simp only [length, decide_true, Bool.true_and, decide_eq_true_eq]

/-! ## Where the parts come from -/

section Parts

variable {quote : Str → Str} {values : List RouteValues} {routes : List ParsedRoute}
  {domains : List Str}

/-- The key of an accepted route has no zero character. -/
theorem zero_notMem_key (accepted : parseRoutes quote values = .ok (routes, domains))
    {route : ParsedRoute} (member : route ∈ routes) : '\x00' ∉ route.key := by
  intro zero
  obtain ⟨value, -, yields⟩ := exists_yields accepted member
  obtain ⟨c, inName, lower⟩ := List.mem_map.mp zero
  obtain rfl : c = '\x00' := by
    by_cases upper : c.val ≥ 'A'.val ∧ c.val ≤ 'Z'.val
    · have small : c.toLower = _ := dif_pos upper
      rw [small] at lower
      have value := congrArg (fun c : Char => c.val.toNat) lower
      have low : 65 ≤ c.val.toNat := UInt32.le_iff_toNat_le.mp upper.1
      have high : c.val.toNat ≤ 90 := UInt32.le_iff_toNat_le.mp upper.2
      simp only [UInt32.toNat_add] at value
      change (c.val.toNat + 32) % 2 ^ 32 = 0 at value
      omega
    · have same : c.toLower = c := dif_neg upper
      rw [← lower, same]
  have clean := (HttpUrl.parse_host yields.publicUrl _ (mem_of_mem_hostname inName)).2
  cases clean

end Parts

/-- What `rewrite_url` of an accepted route passes to `sign` for a URL. -/
inductive SignsParts (quote : Str → Str) : List Str → Prop where
  | rewrite {values : List RouteValues} {routes : List ParsedRoute} {domains : List Str}
      (accepted : parseRoutes quote values = .ok (routes, domains)) {route : ParsedRoute}
      (member : route ∈ routes) {raw : Str} {url : UrlParts} (found : urlParts raw = some url) :
      SignsParts quote [route.key, url.scheme, url.host]

/-- What `proxy_resource` of an accepted route passes to `verify` for a request path. -/
inductive VerifiesParts (quote : Str → Str) : List Str → Prop where
  | resource {values : List RouteValues} {routes : List ParsedRoute} {domains : List Str}
      (accepted : parseRoutes quote values = .ok (routes, domains)) {route : ParsedRoute}
      (member : route ∈ routes) {path : Str} {resource : ResourceParts}
      (found : resourceParts true path = .ok resource) :
      VerifiesParts quote [route.key, resource.scheme, resource.host]

/-- The rewriter and the resource endpoint of a route call the store with those parts. -/
theorem RouteProxy.signature_parts (crates : Crates) (cfg : Config) (route : Route)
    (store : Store) :
    (∀ url, signature crates cfg route (some store) url =
      some (store.sign crates.toStoreCrates [route.key, url.scheme, url.host])) ∧
    ∀ req parts, isHttpScheme parts.first = false →
      (new crates cfg route (some store)).resourceAuthorized crates (some store) req parts =
        store.verify crates.toStoreCrates parts.first [route.key, parts.scheme, parts.host] := by
  refine ⟨fun _ => rfl, ?_⟩
  intro req parts signed
  rw [resourceAuthorized, signed, if_neg (by simp)]
  rfl

theorem zero_notMem_scheme {scheme : Str} (http : isHttpScheme scheme = true) :
    '\x00' ∉ scheme := by
  rcases isHttpScheme_iff.mp http with rfl | rfl <;> decide

variable {quote : Str → Str}

/-- All parts but the last are free of the terminator. -/
theorem SignsParts.framed {parts : List Str} (signs : SignsParts quote parts) :
    parts.length = 3 ∧ ∀ part ∈ parts.dropLast, '\x00' ∉ part := by
  cases signs with
  | rewrite accepted member found =>
      obtain ⟨_, _, of⟩ := urlParts_of found
      have scheme := zero_notMem_scheme (isHttpScheme_iff.mpr of.scheme)
      refine ⟨rfl, ?_⟩
      simpa using ⟨zero_notMem_key accepted member, scheme⟩

theorem VerifiesParts.framed {parts : List Str} (verifies : VerifiesParts quote parts) :
    parts.length = 3 ∧ ∀ part ∈ parts.dropLast, '\x00' ∉ part := by
  cases verifies with
  | resource accepted member found =>
      have scheme := zero_notMem_scheme (resourceParts_eq_ok.mp found).scheme
      refine ⟨rfl, ?_⟩
      simpa using ⟨zero_notMem_key accepted member, scheme⟩

/-! ## The binding -/

/-- The octets of framed parts determine the parts. -/
theorem message_inj {parts parts' : List Str}
    (framed : parts.length = 3 ∧ ∀ part ∈ parts.dropLast, '\x00' ∉ part)
    (framed' : parts'.length = 3 ∧ ∀ part ∈ parts'.dropLast, '\x00' ∉ part) :
    Store.message parts = Store.message parts' ↔ parts = parts' := by
  have fresh : ∀ {parts : List Str}, (∀ part ∈ parts.dropLast, '\x00' ∉ part) →
      ∀ octets ∈ (parts.map encode).dropLast, (0 : UInt8) ∉ octets := by
    intro parts plain octets member
    rw [← List.map_dropLast] at member
    obtain ⟨part, inParts, rfl⟩ := List.mem_map.mp member
    exact mt (mem_encode_ascii (c := '\x00') (by decide)).mp (plain part inParts)
  constructor
  · intro same
    have octets := terminated_inj (by simp [framed.1, framed'.1]) (fresh framed.2)
      (fresh framed'.2) same
    exact List.map_injective_iff.mpr encode_injective octets
  · rintro rfl
    rfl

/-- A signature verifies for its own parts only, as long as the truncated MAC tells apart the
messages it is given. -/
theorem Store.verify_sign_of_framed {crates : StoreCrates} (documented : crates.Documented)
    (store : Store) {parts parts' : List Str}
    (inj : message parts = message parts' ↔ parts = parts') {given : Set Bytes}
    (collisionFree : given.InjOn fun message => (crates.hmacSha256 store.secret message).take 16)
    (member : message parts ∈ given) (member' : message parts' ∈ given) :
    store.verify crates (store.sign crates parts) parts' = true ↔ parts = parts' := by
  rw [verify_sign_iff documented, collisionFree.eq_iff member' member, eq_comm, inj]

/-- The endpoint of a route takes what the rewriter of a route has signed just where the route,
the scheme and the host are the same, as long as the truncated MAC tells apart the messages. -/
theorem RouteProxy.resourceAuthorized_signature {crates : Crates} (documented : crates.Documented)
    {values : List RouteValues} {routes : List ParsedRoute} {domains : List Str}
    (accepted : parseRoutes quote values = .ok (routes, domains)) {route route' : ParsedRoute}
    (member : route ∈ routes) (member' : route' ∈ routes) (cfg : Config) (store : Store)
    {raw : Str} {url : UrlParts} (found : urlParts raw = some url) {path : Str}
    {parts : ResourceParts} (asked : resourceParts true path = .ok parts)
    (signed : signature crates cfg route.toRoute (some store) url = some parts.first)
    {given : Set Bytes}
    (collisionFree : given.InjOn fun message => (crates.hmacSha256 store.secret message).take 16)
    (made : Store.message [route.key, url.scheme, url.host] ∈ given)
    (checked : Store.message [route'.key, parts.scheme, parts.host] ∈ given) (req : Request) :
    (new crates cfg route'.toRoute (some store)).resourceAuthorized crates (some store) req parts =
        true ↔
      route.key = route'.key ∧ url.scheme = parts.scheme ∧ url.host = parts.host := by
  obtain ⟨-, -, plain, -⟩ := signature_plain crates documented parts.first signed
  rw [(signature_parts crates cfg route'.toRoute store).2 req parts plain]
  rw [(signature_parts crates cfg route.toRoute store).1 url, Option.some.injEq] at signed
  rw [← signed, Store.verify_sign_of_framed documented store
    (message_inj (SignsParts.rewrite accepted member found).framed
      (VerifiesParts.resource accepted member' asked).framed) collisionFree made checked]
  simp

/-- A signature is good for the route, the scheme and the host that it was made for, and for
no others, as long as the truncated MAC tells apart the messages it is given. -/
theorem signature_binds {crates : StoreCrates} (documented : crates.Documented)
    {parts parts' : List Str} (signs : SignsParts quote parts)
    (verifies : VerifiesParts quote parts') :
    (Store.message parts = Store.message parts' ↔ parts = parts') ∧
      ∀ (store : Store) (given : Set Bytes),
        given.InjOn (fun message => (crates.hmacSha256 store.secret message).take 16) →
        Store.message parts ∈ given → Store.message parts' ∈ given →
        (store.verify crates (store.sign crates parts) parts' = true ↔ parts = parts') := by
  have inj := message_inj signs.framed verifies.framed
  exact ⟨inj, fun store given collisionFree member member' =>
    store.verify_sign_of_framed documented inj collisionFree member member'⟩

/-- The signature of the examples is for `cdn.example.com`, and not for another host. -/
theorem signature_binds_cdn :
    let parts := ["proxemby".toList, "https".toList, "cdn.example.com".toList]
    let others := ["proxemby".toList, "https".toList, "img.example.com".toList]
    let signature := Reference.store.sign Reference.crates.toStoreCrates parts
    Reference.store.verify Reference.crates.toStoreCrates signature parts = true ∧
      Reference.store.verify Reference.crates.toStoreCrates signature others = false := by
  intro parts others signature
  have accepted : parseRoutes id
      [⟨"http://emby:8096".toList, " http://proxemby".toList, []⟩] =
        .ok ([⟨Reference.route, "proxemby".toList⟩], ["proxemby".toList]) := by
    rfl
  have found : urlParts "https://cdn.example.com/movie.mkv".toList =
      some ⟨"https".toList, "cdn.example.com".toList, "/movie.mkv".toList, "/movie.mkv".toList,
        none⟩ := by
    decide +kernel
  have asked : resourceParts true
      "/_proxy/9v9k6nr-3M8Yf8oREu-yhQ/https/cdn.example.com/movie.mkv".toList =
        .ok ⟨"9v9k6nr-3M8Yf8oREu-yhQ".toList, "https".toList, "cdn.example.com".toList,
          "movie.mkv".toList⟩ := by
    decide +kernel
  have asked' : resourceParts true
      "/_proxy/9v9k6nr-3M8Yf8oREu-yhQ/https/img.example.com/movie.mkv".toList =
        .ok ⟨"9v9k6nr-3M8Yf8oREu-yhQ".toList, "https".toList, "img.example.com".toList,
          "movie.mkv".toList⟩ := by
    decide +kernel
  have collisionFree : Set.InjOn
      (fun message => (Reference.crates.hmacSha256 Reference.store.secret message).take 16)
      {Store.message parts, Store.message others} := by
    rw [Set.injOn_pair]
    exact fun same => absurd same (by decide +kernel)
  have own := (@signature_binds id Reference.crates.toStoreCrates Reference.documented
    parts parts (.rewrite accepted List.mem_cons_self found)
    (.resource accepted List.mem_cons_self asked)).2 Reference.store _ collisionFree
    (.inl rfl) (.inl rfl)
  have other := (@signature_binds id Reference.crates.toStoreCrates
    Reference.documented parts others (.rewrite accepted List.mem_cons_self found)
    (.resource accepted List.mem_cons_self asked')).2 Reference.store _ collisionFree
    (.inl rfl) (.inr rfl)
  exact ⟨own.mpr rfl, Bool.eq_false_iff.mpr (mt other.mp (by decide))⟩

end Proxemby
