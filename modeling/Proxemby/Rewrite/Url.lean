import Proxemby.Rewrite.Document

/-!
# The parts of a URL

What `rewrite_url` cuts a URL into, as the grammar of RFC 3986 has it: a scheme, an
authority that ends in the host, a path, a query and a fragment.
-/

namespace Proxemby

open Utf8 Text

/-- A query with its question mark. -/
def queryText : Option Str → Str
  | some query => '?' :: query
  | none => []

/-- A URL with its user information and fragment, and its other parts. -/
structure UrlParts.Of (url : UrlParts) (raw userinfo fragment : Str) : Prop where
  whole : raw = url.scheme ++ "://".toList ++ userinfo ++ url.host ++ url.rawPath ++
    queryText url.query ++ fragment
  scheme : url.scheme = "http".toList ∨ url.scheme = "https".toList
  userinfoChars : ∀ c ∈ userinfo, c ≠ '/' ∧ c ≠ '?' ∧ c ≠ '#'
  userinfo : userinfo = [] ∨ ∃ before, userinfo = before ++ ['@']
  fragment : fragment = [] ∨ ∃ after, fragment = '#' :: after
  host : validHost url.host = true
  hostChars : ∀ c ∈ url.host, c ≠ '@' ∧ c ≠ '/' ∧ c ≠ '?' ∧ c ≠ '#'
  rawPath : url.rawPath = [] ∨ ∃ after, url.rawPath = '/' :: after
  pathChars : ∀ c ∈ url.rawPath, c ≠ '?' ∧ c ≠ '#'
  query : ∀ query ∈ url.query, '#' ∉ query
  path : percentDecode url.rawPath false = some url.path

theorem validHost_ne_nil {host : Str} (valid : validHost host = true) : host ≠ [] := by
  rintro rfl
  simp [validHost] at valid

theorem splitScheme_spec {raw scheme rest : Str} (split : splitScheme raw = some (scheme, rest)) :
    raw = scheme ++ "://".toList ++ rest ∧
      (scheme = "http".toList ∨ scheme = "https".toList) := by
  simp only [splitScheme] at split
  cases https : stripPrefix "https://".toList raw with
  | some tail =>
      simp only [https, Option.some.injEq, Prod.mk.injEq] at split
      obtain ⟨rfl, rfl⟩ := split
      rw [stripPrefix_eq_some] at https
      exact ⟨https, .inr rfl⟩
  | none =>
      simp only [https, Option.map_eq_some_iff, Prod.mk.injEq] at split
      obtain ⟨tail, http, rfl, rfl⟩ := split
      rw [stripPrefix_eq_some] at http
      exact ⟨http, .inl rfl⟩

theorem splitQuery_spec (text : Str) :
    ∃ before query, splitQuery text = (before, query) ∧
      text = before ++ queryText query ∧ '?' ∉ before := by
  cases found : splitOnce '?' text with
  | none =>
      exact ⟨text, none, by simp [splitQuery, found], (List.append_nil _).symm,
        splitOnce_eq_none.mp found⟩
  | some halves =>
      obtain ⟨before, after⟩ := halves
      obtain ⟨fresh, whole⟩ := splitOnce_eq_some.mp found
      exact ⟨before, some after, by simp [splitQuery, found], whole, fresh⟩

/-- The text before the last run without `sep` is empty or ends with `sep`. -/
theorem rtakeWhile_ne_cases (sep : Char) (xs : Str) :
    ∃ before, xs = before ++ xs.rtakeWhile (· ≠ sep) ∧
      (before = [] ∨ ∃ first, before = first ++ [sep]) := by
  refine ⟨(xs.reverse.dropWhile (· ≠ sep)).reverse, ?_, ?_⟩
  · rw [List.rtakeWhile, ← List.reverse_append, List.takeWhile_append_dropWhile,
      List.reverse_reverse]
  · rcases dropWhile_ne_cases sep xs.reverse with none | ⟨after, some⟩
    · exact .inl (by rw [none, List.reverse_nil])
    · exact .inr ⟨after.reverse, by rw [some, List.reverse_cons]⟩

/-- What `rewrite_url` does to a URL behind its scheme: it cuts off the fragment first, then the
query, then the path, and then the user information. -/
structure UrlParts.Cut (url : UrlParts) (rest beforeQuery : Str) : Prop where
  query : rest.takeWhile (· ≠ '#') = beforeQuery ++ queryText url.query
  noQuery : '?' ∉ beforeQuery
  rawPath : url.rawPath = beforeQuery.dropWhile (· ≠ '/')
  host : url.host = (beforeQuery.takeWhile (· ≠ '/')).rtakeWhile (· ≠ '@')
  valid : validHost url.host = true
  path : percentDecode url.rawPath false = some url.path

theorem urlParts_cut {raw : Str} {url : UrlParts} (parts : urlParts raw = some url) :
    ∃ rest beforeQuery, splitScheme raw = some (url.scheme, rest) ∧
      url.Cut rest beforeQuery := by
  simp only [urlParts, Option.bind_eq_bind, Option.bind_eq_some_iff] at parts
  obtain ⟨⟨scheme, rest⟩, scheme_rest, parts⟩ := parts
  dsimp only at parts
  split at parts
  · simp at parts
  · obtain ⟨beforeQuery, query, cut, whole, fresh⟩ := splitQuery_spec (rest.takeWhile (· ≠ '#'))
    rw [cut] at parts
    simp only [splitBefore] at parts
    have valid : validHost
        ((beforeQuery.takeWhile (· ≠ '/')).rtakeWhile (· ≠ '@')) = true := by
      by_contra invalid
      rw [Bool.not_eq_true] at invalid
      simp only [invalid, Bool.not_false, ↓reduceIte, reduceCtorEq] at parts
    simp only [valid, Bool.not_true, Bool.false_eq_true, ↓reduceIte, Option.bind_eq_some_iff,
      Option.pure_def, Option.some.injEq] at parts
    obtain ⟨path, decoded, rfl⟩ := parts
    exact ⟨rest, beforeQuery, scheme_rest, whole, fresh, rfl, rfl, valid, decoded⟩

namespace UrlParts.Cut

variable {url : UrlParts} {rest beforeQuery : Str}

theorem noHash (cut : url.Cut rest beforeQuery) :
    ∀ c ∈ beforeQuery ++ queryText url.query, c ≠ '#' := by
  intro c member
  rw [← cut.query] at member
  simpa using List.mem_takeWhile_imp member

theorem authorityChars (cut : url.Cut rest beforeQuery) :
    ∀ c ∈ beforeQuery.takeWhile (· ≠ '/'), c ≠ '/' ∧ c ≠ '?' ∧ c ≠ '#' := by
  intro c member
  have slash : c ≠ '/' := by simpa using List.mem_takeWhile_imp member
  have inBefore : c ∈ beforeQuery := (List.takeWhile_prefix _).subset member
  refine ⟨slash, ?_, cut.noHash c (List.mem_append_left _ inBefore)⟩
  rintro rfl
  exact cut.noQuery inBefore

theorem pathChars (cut : url.Cut rest beforeQuery) :
    ∀ c ∈ url.rawPath, c ≠ '?' ∧ c ≠ '#' := by
  intro c member
  rw [cut.rawPath] at member
  have inBefore : c ∈ beforeQuery := (List.dropWhile_suffix _).subset member
  refine ⟨?_, cut.noHash c (List.mem_append_left _ inBefore)⟩
  rintro rfl
  exact cut.noQuery inBefore

/-- The parts behind the scheme, with the user information that `rewrite_url` drops. -/
theorem whole (cut : url.Cut rest beforeQuery) {userinfo : Str}
    (authority : beforeQuery.takeWhile (· ≠ '/') = userinfo ++ url.host) :
    rest = userinfo ++ url.host ++ url.rawPath ++ queryText url.query ++
      rest.dropWhile (· ≠ '#') := by
  have before : beforeQuery = userinfo ++ url.host ++ url.rawPath := by
    rw [← authority, cut.rawPath, List.takeWhile_append_dropWhile]
  rw [← before, ← cut.query, List.takeWhile_append_dropWhile]

end UrlParts.Cut

/-- `rewrite_url` cuts a URL at its delimiters. -/
theorem urlParts_of {raw : Str} {url : UrlParts} (parts : urlParts raw = some url) :
    ∃ userinfo fragment, url.Of raw userinfo fragment := by
  obtain ⟨rest, beforeQuery, scheme, cut⟩ := urlParts_cut parts
  obtain ⟨raw_eq, isScheme⟩ := splitScheme_spec scheme
  obtain ⟨userinfo, authority, isUserinfo⟩ :=
    rtakeWhile_ne_cases '@' (beforeQuery.takeWhile (· ≠ '/'))
  rw [← cut.host] at authority
  refine ⟨userinfo, rest.dropWhile (· ≠ '#'), ?_⟩
  constructor
  case whole =>
    rw [raw_eq]
    conv_lhs => rw [cut.whole authority]
    simp only [List.append_assoc]
  case scheme => exact isScheme
  case userinfoChars =>
    intro c member
    exact cut.authorityChars c (by rw [authority]; exact List.mem_append_left _ member)
  case userinfo => exact isUserinfo
  case fragment => exact dropWhile_ne_cases '#' rest
  case host => exact cut.valid
  case hostChars =>
    intro c member
    have inAuthority : c ∈ beforeQuery.takeWhile (· ≠ '/') := by
      rw [authority]
      exact List.mem_append_right _ member
    rw [cut.host] at member
    exact ⟨by simpa using List.mem_rtakeWhile_imp member, cut.authorityChars c inAuthority⟩
  case rawPath =>
    rw [cut.rawPath]
    exact dropWhile_ne_cases '/' beforeQuery
  case pathChars => exact cut.pathChars
  case query =>
    rintro query member hash
    rw [Option.mem_def] at member
    refine cut.noHash '#' (List.mem_append_right _ ?_) rfl
    rw [member]
    exact List.mem_cons_of_mem _ hash
  case path => exact cut.path

/-- The host of a rewritable URL is not empty. -/
theorem host_ne_nil {raw : Str} {url : UrlParts} (parts : urlParts raw = some url) :
    url.host ≠ [] := by
  obtain ⟨userinfo, fragment, of⟩ := urlParts_of parts
  exact validHost_ne_nil of.host

end Proxemby
