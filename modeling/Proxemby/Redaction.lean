import Proxemby.Auth.Token
import Proxemby.Queries

/-!
# Tokens and the redaction of queries

`request_token` and `sanitize_raw_query` read the same query with different key
lists, and the first is lenient about malformed neighbours while the second is
not.  This module relates the query pair that a token is taken from to what the
log shows of the query.
-/

namespace Proxemby

open Text

/-! ## Parsing part by part -/

/-- A part that parses and is not malformed has no semicolon. -/
theorem semicolon_not_mem_of_parseParts {part : Str} (wellFormed : (parseParts [part]).2 = false) :
    ';' ∉ part := by
  intro member
  have nonempty : part ≠ [] := List.ne_nil_of_mem member
  simp [parseParts, member, nonempty] at wellFormed

/-! ## The part a token is taken from -/

/-- `requestToken` takes its token from the part `key=value` of the query: no
header and no earlier part has one, and this part does. -/
structure TokenPart (headers : HeaderMap) (query : Str) (before : List Str)
    (key value : Str) (after : List Str) : Prop where
  parts : query.splitOn '&' = before ++ (key ++ '=' :: value) :: after
  plain : '=' ∉ key
  noHeader : requestToken headers none = none
  earlier : ∀ part ∈ before, requestToken headers (some part) = none
  here : requestToken headers (some (key ++ '=' :: value)) ≠ none

/-- The query with that value replaced. -/
def withValue (before : List Str) (key value : Str) (after : List Str) : Str :=
  ['&'].intercalate (before ++ (key ++ '=' :: value) :: after)

/-- A percent-encoded value that does not decode to blank text. -/
structure EncodedValue (value : Str) : Prop where
  noSeparator : '&' ∉ value ∧ ';' ∉ value
  decodes : ∃ decoded, percentDecode value true = some decoded ∧ trim decoded ≠ []

theorem queryToken_eq (query : Str) :
    queryToken query =
      ((parseParts (query.splitOn '&')).1.find? isTokenPair).map fun pair =>
        trim pair.2 := by
  by_cases blank : query = []
  · simp [blank, queryToken, parseParts]
  · simp [queryToken, blank, parseQuery]

/-- Without a header that carries a token the query decides. -/
theorem requestToken_some {headers : HeaderMap}
    (noHeader : requestToken headers none = none) (query : Str) :
    requestToken headers (some query) = queryToken query := by
  unfold requestToken at noHeader ⊢
  generalize tokenHeaders.findSome? _ = direct at noHeader ⊢
  generalize authorizationHeaders.findSome? _ = authorization at noHeader ⊢
  cases direct with
  | some token => simp at noHeader
  | none =>
      cases authorization with
      | some token => simp at noHeader
      | none => simp

/-- The token of a query of one part is that of the part's own pair. -/
theorem requestToken_part {headers : HeaderMap}
    (noHeader : requestToken headers none = none) {part : Str} (noSeparator : '&' ∉ part) :
    requestToken headers (some part) =
      ((parseParts [part]).1.find? isTokenPair).map fun pair => trim pair.2 := by
  rw [requestToken_some noHeader, queryToken_eq, List.splitOn_eq_singleton noSeparator]

/-- Searching the pairs of a list of parts stops at the first part with a hit. -/
theorem exists_part_of_find? {parts : List Str} {pair : Str × Str}
    (found : (parseParts parts).1.find? isTokenPair = some pair) :
    ∃ before part after, parts = before ++ part :: after ∧
      (∀ earlier ∈ before, (parseParts [earlier]).1.find? isTokenPair = none) ∧
      (parseParts [part]).1.find? isTokenPair = some pair := by
  induction parts with
  | nil => simp [parseParts] at found
  | cons part rest ih =>
      rw [parseParts_cons, List.find?_append] at found
      cases hit : (parseParts [part]).1.find? isTokenPair with
      | some own =>
          rw [hit, Option.some_or] at found
          exact ⟨[], part, rest, rfl, by simp, hit.trans found⟩
      | none =>
          rw [hit, Option.none_or] at found
          obtain ⟨before, later, after, rfl, none_before, own⟩ := ih found
          refine ⟨part :: before, later, after, rfl, ?_, own⟩
          intro earlier member
          rcases List.mem_cons.mp member with rfl | member
          · exact hit
          · exact none_before earlier member

/-- A part whose pair carries a token has an equals sign: without one its value
is blank. -/
theorem exists_key_of_find? {part : Str} {pair : Str × Str}
    (found : (parseParts [part]).1.find? isTokenPair = some pair) :
    ∃ key value, '=' ∉ key ∧ part = key ++ '=' :: value := by
  cases cut : splitOnce '=' part with
  | some halves =>
      obtain ⟨fresh, equal⟩ := splitOnce_eq_some.mp cut
      exact ⟨halves.1, halves.2, fresh, equal⟩
  | none =>
      exfalso
      have blankValue : percentDecode [] true = some [] := rfl
      simp only [parseParts, cut, Option.getD_none, blankValue] at found
      split at found
      · simp at found
      · split at found
        · simp at found
        · cases decoded : percentDecode part true with
          | none => simp [decoded] at found
          | some key =>
              simp only [decoded, List.find?_singleton] at found
              simp [isTokenPair, trim, trimMatches] at found

/-- When no header has a token, the token of a query is taken from exactly one
of its parts. -/
theorem exists_tokenPart {headers : HeaderMap} {query token : Str}
    (noHeader : requestToken headers none = none)
    (taken : requestToken headers (some query) = some token) :
    ∃ before key value after, TokenPart headers query before key value after ∧
      requestToken headers (some (key ++ '=' :: value)) = some token := by
  rw [requestToken_some noHeader, queryToken_eq, Option.map_eq_some_iff] at taken
  obtain ⟨pair, found, rfl⟩ := taken
  obtain ⟨before, part, after, parts, none_before, own⟩ := exists_part_of_find? found
  obtain ⟨key, value, plain, rfl⟩ := exists_key_of_find? own
  have noSeparator : ∀ other ∈ query.splitOn '&', '&' ∉ other := fun _ member =>
    notMem_of_mem_splitOn member
  have here := requestToken_part noHeader
    (noSeparator (key ++ '=' :: value) (by simp [parts]))
  rw [own] at here
  refine ⟨before, key, value, after, ⟨parts, plain, noHeader, ?_, ?_⟩, here⟩
  · intro earlier member
    rw [requestToken_part noHeader (noSeparator earlier (by simp [parts, member])),
      none_before earlier member]
    rfl
  · simp [here]

/-! ## Redaction -/

/-- The redaction of a list of pairs reads no value of a sensitive key. -/
theorem redactPairs_replace {name : Str}
    (sensitive : toAsciiLowercase name ∈ sensitiveQueryKeys) (left right : Str)
    (after : List (Str × Str)) (before : List (Str × Str)) (seen : List Str) :
    redactPairs seen (before ++ (name, left) :: after) =
      redactPairs seen (before ++ (name, right) :: after) := by
  induction before generalizing seen with
  | nil => simp [redactPairs, sensitive]
  | cons pair before ih =>
      obtain ⟨key, value⟩ := pair
      simp only [List.cons_append, redactPairs, ih]

/-- In a well-formed query the part of the token is one pair, and the parts
around it are well formed. -/
theorem TokenPart.pairs {headers : HeaderMap} {query : Str} {before after : List Str}
    {key value name : Str} (token : TokenPart headers query before key value after)
    (wellFormed : (parseQuery query).2 = false)
    (keyDecodes : percentDecode key true = some name) :
    (∃ decoded, (parseQuery query).1 =
      (parseParts before).1 ++ (name, decoded) :: (parseParts after).1) ∧
    (parseParts before).2 = false ∧ (parseParts after).2 = false ∧ ';' ∉ key := by
  rw [parseQuery, token.parts, parseParts_append, parseParts_cons] at wellFormed ⊢
  simp only [Bool.or_eq_false_iff] at wellFormed
  obtain ⟨beforeOk, partOk, afterOk⟩ := wellFormed
  have noSemicolon := semicolon_not_mem_of_parseParts partOk
  refine ⟨?_, beforeOk, afterOk, fun member => noSemicolon (by simp [member])⟩
  cases valueDecodes : percentDecode value true with
  | none =>
      simp [parseParts, splitOnce_append token.plain, keyDecodes, valueDecodes] at partOk
  | some decoded =>
      refine ⟨decoded, ?_⟩
      rw [parseParts_pair token.plain keyDecodes valueDecodes noSemicolon]
      simp

/-- The parts of the query with the value replaced. -/
theorem TokenPart.splitOn_withValue {headers : HeaderMap} {query : Str}
    {before after : List Str} {key value value' : Str}
    (token : TokenPart headers query before key value after)
    (encoded : EncodedValue value') :
    (withValue before key value' after).splitOn '&' =
      before ++ (key ++ '=' :: value') :: after := by
  have noSeparator : ∀ part ∈ before ++ (key ++ '=' :: value) :: after, '&' ∉ part := by
    intro part member
    rw [← token.parts] at member
    exact notMem_of_mem_splitOn member
  refine List.splitOn_intercalate '&' (fun part member => ?_) (by simp)
  rcases List.mem_append.mp member with member | member
  · exact noSeparator part (by simp [member])
  · rcases List.mem_cons.mp member with rfl | member
    · have keyPlain := noSeparator (key ++ '=' :: value) (by simp)
      simp only [List.mem_append, List.mem_cons, not_or] at keyPlain ⊢
      exact ⟨keyPlain.1, by decide, encoded.noSeparator.1⟩
    · exact noSeparator part (by simp [member])

/-- The log does not depend on the value that a well-formed query passes as the
token under one of the redacted keys. -/
theorem sanitizeRequestUri_replaceToken {headers : HeaderMap} {query : Str}
    {before after : List Str} {key value name : Str} (path value' : Str)
    (token : TokenPart headers query before key value after)
    (wellFormed : (parseQuery query).2 = false)
    (keyDecodes : percentDecode key true = some name)
    (sensitive : toAsciiLowercase name ∈ sensitiveQueryKeys)
    (encoded : EncodedValue value') :
    sanitizeRequestUri path (some (withValue before key value' after)) =
      sanitizeRequestUri path (some query) := by
  obtain ⟨⟨decoded, pairs⟩, beforeOk, afterOk, keySemicolon⟩ :=
    token.pairs wellFormed keyDecodes
  obtain ⟨decoded', valueDecodes, -⟩ := encoded.decodes
  have noSemicolon : ';' ∉ key ++ '=' :: value' := by
    simp [keySemicolon, encoded.noSeparator.2]
  have parsed' : parseQuery (withValue before key value' after) =
      ((parseParts before).1 ++ (name, decoded') :: (parseParts after).1, false) := by
    rw [parseQuery, token.splitOn_withValue encoded, parseParts_append, parseParts_cons,
      parseParts_pair token.plain keyDecodes valueDecodes noSemicolon]
    simp [beforeOk, afterOk]
  have parsed : parseQuery query =
      ((parseParts before).1 ++ (name, decoded) :: (parseParts after).1, false) :=
    Prod.ext pairs wellFormed
  -- The empty query has no pairs at all.
  have nonempty : query ≠ [] := by
    rintro rfl
    simp [parseQuery, parseParts] at parsed
  have nonempty' : withValue before key value' after ≠ [] := by
    intro blank
    simp [blank, parseQuery, parseParts] at parsed'
  have same : sanitizeRawQuery (withValue before key value' after) =
      sanitizeRawQuery query := by
    simp only [sanitizeRawQuery, nonempty, nonempty', ↓reduceIte, parsed, parsed',
      Bool.false_eq_true]
    rw [redactPairs_replace sensitive decoded' decoded]
  simp only [sanitizeRequestUri, Option.map_some, same]

/-- The redaction at a well-formed query with a capitalised key. -/
theorem sanitizeRequestUri_replaceToken_apiKey :
    sanitizeRequestUri "/emby/Items".toList
        (some (withValue ["a=1".toList] "Api_Key".toList "x%2By".toList
          ["b=2".toList])) =
      sanitizeRequestUri "/emby/Items".toList
        (some "a=1&Api_Key=secret&b=2".toList) :=
  @sanitizeRequestUri_replaceToken .empty _ _ _ _ ("secret".toList) ("Api_Key".toList)
      "/emby/Items".toList "x%2By".toList
      ⟨by decide, by decide, by decide, by decide, by decide⟩ (by decide) (by decide)
      (by decide) ⟨by decide, "x+y".toList, by decide, by decide⟩

/-- Two queries whose token the log shows: a malformed neighbour makes
`sanitizeRawQuery` return the query as it is, and `X-Emby-Token` is a key that
`requestToken` reads and the redaction does not know. -/
theorem sanitizeRequestUri_shows_token :
    (TokenPart .empty "api_key=secret&a=1;b=2".toList [] "api_key".toList
        "secret".toList ["a=1;b=2".toList] ∧
      EncodedValue "other".toList ∧
      sanitizeRequestUri "/".toList
          (some (withValue [] "api_key".toList "other".toList ["a=1;b=2".toList])) ≠
        sanitizeRequestUri "/".toList (some "api_key=secret&a=1;b=2".toList)) ∧
    TokenPart .empty "X-Emby-Token=secret".toList [] "X-Emby-Token".toList
        "secret".toList [] ∧
      sanitizeRequestUri "/".toList
          (some (withValue [] "X-Emby-Token".toList "other".toList [])) ≠
        sanitizeRequestUri "/".toList (some "X-Emby-Token=secret".toList) :=
  ⟨⟨⟨by decide, by decide, by decide, by decide, by decide⟩,
    ⟨by decide, "other".toList, by decide, by decide⟩, by decide⟩,
    ⟨by decide, by decide, by decide, by decide, by decide⟩, by decide⟩

end Proxemby
