import Proxemby.Http

/-!
# Access tokens in requests

`request_token` and `authorization_token` of `src/auth.rs`: the four headers and
four query keys in which a client may send its Emby access token.
-/

namespace Proxemby

open Text

def tokenHeaders : List Str := ["x-emby-token".toList, "x-mediabrowser-token".toList]

def authorizationHeaders : List Str :=
  ["x-emby-authorization".toList, "authorization".toList]

def tokenQueryKeys : List Str :=
  ["api_key".toList, "apikey".toList, "x-emby-token".toList,
    "x-mediabrowser-token".toList]

/-- Rust's `u8::is_ascii_whitespace`. -/
def isAsciiWhitespace (c : Char) : Bool :=
  c == ' ' || c == '\t' || c == '\n' || c == '\x0C' || c == '\r'

/-- What `authorizationToken` reads after the word `token`: an equals sign and a
value that ends at a quote, a comma or white space. -/
def tokenParameter (rest : Str) : Option Str :=
  match rest.dropWhile isAsciiWhitespace with
  | '=' :: rest =>
      let rest := rest.dropWhile isAsciiWhitespace
      let rest := (stripPrefix ['"'] rest).getD rest
      let value := rest.takeWhile fun c => !(c == '"' || c == ',' || isAsciiWhitespace c)
      if value = [] then none else some value
  | _ => none

/-- The scan of `authorizationToken`, with the character before the position. -/
def authorizationTokenFrom (previous : Option Char) : Str → Option Str
  | [] => none
  | c :: rest =>
      let atBoundary :=
        match previous with
        | none => true
        | some p => p == ' ' || p == '\t' || p == ','
      if atBoundary && eqIgnoreAsciiCase ((c :: rest).take 5) "token".toList then
        match tokenParameter ((c :: rest).drop 5) with
        | some value => some value
        | none => authorizationTokenFrom (some c) rest
      else authorizationTokenFrom (some c) rest

/-- Extract `Token="..."` from an Emby authorization header. -/
def authorizationToken (header : Str) : Option Str :=
  authorizationTokenFrom none header

/-- A query pair that carries a token. -/
def isTokenPair (pair : Str × Str) : Bool :=
  tokenQueryKeys.contains (toAsciiLowercase pair.1) && trim pair.2 ≠ []

/-- The token of a query: the trimmed value of its first pair with one. -/
def queryToken (query : Str) : Option Str :=
  if query = [] then none
  else ((parseQuery query).1.find? isTokenPair).map fun pair => trim pair.2

/-- The Emby access token sent by a client, if any. -/
def requestToken (headers : HeaderMap) (query : Option Str) : Option Str :=
  (tokenHeaders.findSome? fun name =>
    (((headers.get name).bind HeaderValue.toStr).map trim).filter (· ≠ [])) <|>
  (authorizationHeaders.findSome? fun name =>
    ((headers.get name).bind HeaderValue.toStr).bind authorizationToken) <|>
  query.bind queryToken

example : authorizationToken
    "MediaBrowser Client=\"Emby Web\", Device=\"Chrome, Mac\", Token=\"abc\"".toList =
    some "abc".toList := by decide

example : authorizationToken "MediaBrowser AccessToken=\"nope\"".toList = none := by
  decide

end Proxemby
