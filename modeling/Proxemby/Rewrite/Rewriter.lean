import Proxemby.Hosts
import Proxemby.Rewrite.Scanner

/-!
# The rewriter

`Rewriter` of `src/rewrite.rs`.  The registry it learns hosts into is shared by
the requests of a route, so it is passed in and out.  The JSON form of a string
comes from `serde_json` and is a parameter.
-/

namespace Proxemby

open Utf8 Text

/-- Signs a scheme and a host. -/
abbrev Signer := Str → Str → Str

structure Rewriter where
  publicUrl : HttpUrl
  publicPath : Str
  sign : Option Signer

structure RewriteEvent where
  path : Str
  original : Str
  rewritten : Str
  scheme : Str
  host : Str
  deriving DecidableEq

def validHost (host : Str) : Bool :=
  if host = [] ∨ (encode host).any (fun b => b ≤ 0x20 || b == 0x25 || b == 0x22 || b == 0x3C ||
      b == 0x3E || b == 0x5C) then false
  else
    let port : Option Str :=
      if (stripPrefix ['['] host).isSome then (splitOnce ']' host).map fun halves => halves.2
      else
        match rsplitOnce ':' host with
        | some (_, port) => some (':' :: port)
        | none => some []
    match port with
    | none => false
    | some [] => true
    | some (c :: digits) =>
        c = ':' && (encode digits).all fun b => 0x30 ≤ b && b ≤ 0x39

/-- Join path segments like the Go implementation: each part is trimmed of
slashes and empty parts are dropped. -/
def joinUrlPath (base : Str) (parts : List Str) : Str :=
  let out := (base :: parts).flatMap fun part =>
    let part := trimMatches (· = '/') part
    if part = [] then [] else '/' :: part
  if out = [] then ['/'] else out

/-- The parts `rewrite_url` cuts a URL into, with the path decoded. -/
structure UrlParts where
  scheme : Str
  host : Str
  rawPath : Str
  path : Str
  query : Option Str
  deriving DecidableEq

/-- The scheme of a URL that may be rewritten, and what follows it. -/
def splitScheme (raw : Str) : Option (Str × Str) :=
  match stripPrefix "https://".toList raw with
  | some rest => some ("https".toList, rest)
  | none => (stripPrefix "http://".toList raw).map fun rest => ("http".toList, rest)

/-- A text up to its first question mark, and the query after it. -/
def splitQuery (text : Str) : Str × Option Str :=
  match splitOnce '?' text with
  | some (before, query) => (before, some query)
  | none => (text, none)

/-- The checks of `rewrite_url`, up to the registration of the host. -/
def urlParts (raw : Str) : Option UrlParts := do
  let (scheme, rest) ← splitScheme raw
  if (encode raw).any fun b => b < 0x20 || b == 0x7F then none
  else
    let (beforeQuery, query) := splitQuery (rest.takeWhile (· ≠ '#'))
    let (authority, rawPath) := splitBefore '/' beforeQuery
    let host := authority.rtakeWhile (· ≠ '@')
    if !validHost host then none
    else
      let path ← percentDecode rawPath false
      return { scheme, host, rawPath, path, query }

namespace Rewriter

def new (publicUrl : HttpUrl) : Rewriter where
  publicUrl
  publicPath := (percentDecode publicUrl.path false).getD publicUrl.path
  sign := none

/-- Add a signature path segment in front of the scheme. -/
def withSigner (rewriter : Rewriter) (sign : Signer) : Rewriter :=
  { rewriter with sign := some sign }

/-- The path segments under the public path. -/
def segments (rewriter : Rewriter) (url : UrlParts) : List Str :=
  ["_proxy".toList] ++
    (match rewriter.sign with
      | some sign => [sign url.scheme url.host]
      | none => []) ++
    [url.scheme, url.host, url.path.dropWhile (· = '/')]

/-- The URL that takes the place of one with these parts. -/
def rewritten (rewriter : Rewriter) (url : UrlParts) : Str :=
  let rewritten := rewriter.publicUrl.scheme ++ "://".toList ++ rewriter.publicUrl.host ++
    escapePath (joinUrlPath rewriter.publicPath (rewriter.segments url))
  match url.query with
  | some query => if query = [] then rewritten else rewritten ++ '?' :: query
  | none => rewritten

/-- The rewritten URL with its scheme and host, which the registry learns. -/
def rewriteUrl (rewriter : Rewriter) (registry : Registry) (raw : Str) :
    Option (Registry × Str × Str × Str) := do
  let url ← urlParts raw
  return (registry.allow url.host url.scheme, rewriter.rewritten url, url.scheme, url.host)

/-- The state of the splice loop. -/
structure Splice where
  registry : Registry
  out : Option Bytes
  last : Nat
  events : List RewriteEvent

/-- `body[start..stop]`, which panics when out of order or out of range. -/
def bodySlice (body : Bytes) (start stop : Nat) : Option Bytes :=
  if start ≤ stop ∧ stop ≤ body.length then some ((body.drop start).take (stop - start))
  else none

variable (rewriter : Rewriter) (toJson : Str → Str)

/-- One round of the splice loop; `none` is a panic. -/
def splice (body : Bytes) (state : Splice) (item : FoundString) : Option Splice :=
  match rewriter.rewriteUrl state.registry item.value with
  | none => some state
  | some (registry, rewritten, scheme, host) => do
      let between ← bodySlice body state.last item.start
      return {
        registry
        out := some (state.out.getD [] ++ between ++ encode (toJson rewritten))
        last := item.stop
        events := state.events ++ [⟨item.path, item.value, rewritten, scheme, host⟩] }

/-- The splice loop and the rest of the body. -/
def spliceAll (registry : Registry) (body : Bytes) (items : List FoundString) :
    Option (Registry × Option Bytes × List RewriteEvent) := do
  let state ← items.foldlM (splice rewriter toJson body) ⟨registry, none, 0, []⟩
  match state.out with
  | none => return (state.registry, none, state.events)
  | some out =>
      let rest ← bodySlice body state.last body.length
      return (state.registry, some (out ++ rest), state.events)

/-- The registry after a body, the rewritten body unless nothing changed, and
what was rewritten; `none` is a panic. -/
def rewritePlaybackInfo (registry : Registry) (body : Bytes) :
    Option (Registry × Option Bytes × List RewriteEvent) :=
  match decode body with
  | none => some (registry, none, [])
  | some text =>
      match scan text with
      | none => some (registry, none, [])
      | some items => rewriter.spliceAll toJson registry body items

end Rewriter

end Proxemby
