import Proxemby.Lib.Text
import Proxemby.Lib.Utf8

/-!
# URL and query helpers

`src/util.rs`: percent escapes, query parsing, the redaction of queries for the
log, and the absolute URLs of the configuration.
-/

namespace Proxemby

/-- A Rust string: its Unicode scalar values. -/
abbrev Str := List Char

/-- Octets, such as a body or the content of a file. -/
abbrev Bytes := List UInt8

open Text Utf8

/-! ## Percent escapes -/

/-- The hexadecimal digits written by the encoders. -/
def hexDigits : Str := "0123456789ABCDEF".toList

/-- The digit for a value below 16. -/
def hexDigit (n : UInt8) : Char := hexDigits.getD n.toNat '0'

/-- The value of a hexadecimal digit in either case. -/
def unhex (c : UInt8) : Option UInt8 :=
  if 0x30 ≤ c && c ≤ 0x39 then some (c - 0x30)
  else if 0x61 ≤ c && c ≤ 0x66 then some (c - 0x61 + 10)
  else if 0x41 ≤ c && c ≤ 0x46 then some (c - 0x41 + 10)
  else none

/-- The decoding loop of `percentDecode`: the octets the escapes denote. -/
def percentBytes (plusAsSpace : Bool) : Bytes → Option Bytes
  | [] => some []
  | b :: rest =>
      if b = 0x25 then
        match rest with
        | hi :: lo :: rest => do
            let hi ← unhex hi
            let lo ← unhex lo
            let out ← percentBytes plusAsSpace rest
            return (hi <<< 4 ||| lo) :: out
        | _ => none
      else if b = 0x2B && plusAsSpace then
        (percentBytes plusAsSpace rest).map (0x20 :: ·)
      else (percentBytes plusAsSpace rest).map (b :: ·)

/-- Decode percent escapes; `none` for malformed ones.  Octets that are not
UTF-8 are repaired. -/
def percentDecode (s : Str) (plusAsSpace : Bool) : Option Str :=
  if !(s.contains '%' || plusAsSpace && s.contains '+') then some s
  else
    (percentBytes plusAsSpace (encode s)).map fun out =>
      (decode out).getD (decodeLossy out)

/-- The escape of one octet. -/
def percentByte (b : UInt8) : Str :=
  ['%', hexDigit (b >>> 4), hexDigit (b &&& 15)]

/-- The octets RFC 3986 leaves unreserved: letters, digits, `-`, `_`, `.`, `~`. -/
def isUnreserved (b : UInt8) : Bool :=
  (0x41 ≤ b && b ≤ 0x5A) || (0x61 ≤ b && b ≤ 0x7A) || (0x30 ≤ b && b ≤ 0x39) ||
    b == 0x2D || b == 0x5F || b == 0x2E || b == 0x7E

/-- The octets `escapePath` keeps: the unreserved ones and `$&+,/:;=@`. -/
def isPathByte (b : UInt8) : Bool :=
  isUnreserved b || b == 0x24 || b == 0x26 || b == 0x2B || b == 0x2C ||
    b == 0x2F || b == 0x3A || b == 0x3B || b == 0x3D || b == 0x40

/-- Write a string octet by octet. -/
def escapeWith (one : UInt8 → Str) (s : Str) : Str := (encode s).flatMap one

/-- One octet of `queryEscape`. -/
def queryByte (b : UInt8) : Str :=
  if isUnreserved b then [Char.ofNat b.toNat]
  else if b = 0x20 then ['+']
  else percentByte b

/-- Escape like Go's `url.QueryEscape`. -/
def queryEscape (s : Str) : Str := escapeWith queryByte s

/-- One octet of `escapePath`. -/
def pathByte (b : UInt8) : Str :=
  if isPathByte b then [Char.ofNat b.toNat] else percentByte b

/-- Escape a decoded path. -/
def escapePath (s : Str) : Str := escapeWith pathByte s

/-! ## Queries -/

/-- The pairs of the parts of a query, and whether any part was malformed. -/
def parseParts : List Str → List (Str × Str) × Bool
  | [] => ([], false)
  | part :: rest =>
      let (pairs, malformed) := parseParts rest
      if part = [] then (pairs, malformed)
      else if part.contains ';' then (pairs, true)
      else
        let (key, value) := (splitOnce '=' part).getD (part, [])
        match percentDecode key true, percentDecode value true with
        | some key, some value => ((key, value) :: pairs, malformed)
        | _, _ => (pairs, true)

/-- Parse a raw query like Go's `url.ParseQuery`.  The flag reports whether any
pair was malformed; well-formed pairs are still returned. -/
def parseQuery (raw : Str) : List (Str × Str) × Bool :=
  parseParts (raw.splitOn '&')

def sensitiveQueryKeys : List Str :=
  ["api_key".toList, "apikey".toList, "access_token".toList, "token".toList,
    "auth".toList, "password".toList]

def redacted : Str := "redacted".toList

/-- The `retain_mut` pass of `sanitizeRawQuery`: each sensitive key keeps its
first pair only, with its value replaced. -/
def redactPairs (seenSensitive : List Str) : List (Str × Str) → List (Str × Str)
  | [] => []
  | (key, value) :: pairs =>
      if sensitiveQueryKeys.contains (toAsciiLowercase key) then
        if seenSensitive.contains key then redactPairs seenSensitive pairs
        else (key, redacted) :: redactPairs (seenSensitive ++ [key]) pairs
      else (key, value) :: redactPairs seenSensitive pairs

/-- Rust's order of strings: that of their octets. -/
def strLe (left right : Str) : Bool := decide (encode left ≤ encode right)

/-- Stable sort of pairs by key. -/
def sortPairs (pairs : List (Str × Str)) : List (Str × Str) :=
  pairs.insertionSort fun left right => strLe left.1 right.1

/-- The output loop of `sanitizeRawQuery`. -/
def writePairs (out : Str) : List (Str × Str) → Str
  | [] => out
  | (key, value) :: pairs =>
      let out := if out = [] then out else out ++ ['&']
      writePairs (out ++ queryEscape key ++ ['='] ++ queryEscape value) pairs

/-- Replace sensitive query values with `redacted`.  Malformed queries are
returned unchanged. -/
def sanitizeRawQuery (raw : Str) : Str :=
  if raw = [] then []
  else
    let (pairs, malformed) := parseQuery raw
    if malformed then raw
    else writePairs [] (sortPairs (redactPairs [] pairs))

/-- A request path and query for the log, with sensitive values redacted. -/
def sanitizeRequestUri (path : Str) (query : Option Str) : Str :=
  let path := if path = [] then ['/'] else path
  match query.map sanitizeRawQuery with
  | some q => if q = [] then path else path ++ '?' :: q
  | none => path

/-! ## Absolute URLs -/

/-- Returns the hostname part of a `Host` value: no port, no IPv6 brackets. -/
def hostname (host : Str) : Str :=
  let host := trim host
  match stripPrefix ['['] host with
  | some rest =>
      match splitOnce ']' rest with
      | some (inner, _) => inner
      | none => rest
  | none =>
      -- Only one colon means host:port; more means a bare IPv6 address.
      match rsplitOnce ':' host with
      | some (name, _) => if name.contains ':' then host else name
      | none => host

/-- An absolute http or https URL from the configuration. -/
structure HttpUrl where
  scheme : Str
  host : Str
  path : Str
  query : Str
  deriving DecidableEq

namespace HttpUrl

def parse (raw : Str) : Except Str HttpUrl :=
  match splitOnceText "://".toList raw with
  | none => .error "missing scheme".toList
  | some (scheme, rest) =>
      let scheme := toAsciiLowercase scheme
      let rest := rest.takeWhile (· ≠ '#')
      let (beforeQuery, query) := (splitOnce '?' rest).getD (rest, [])
      let (authority, path) := splitBefore '/' beforeQuery
      let host := authority.rtakeWhile (· ≠ '@')
      if host.any (fun c => isWhitespace c || isControl c) || path.any isControl then
        .error "invalid character in URL".toList
      else .ok { scheme, host, path, query }

def hostname (url : HttpUrl) : Str := Proxemby.hostname url.host

/-- The `Display` form. -/
def toStr (url : HttpUrl) : Str :=
  url.scheme ++ "://".toList ++ url.host ++ url.path ++
    if url.query = [] then [] else '?' :: url.query

end HttpUrl

example : sanitizeRawQuery "api_key=secret&token=abc&device=ios".toList =
    "api_key=redacted&device=ios&token=redacted".toList := by decide

example : hostname "[::1]:8080".toList = "::1".toList := by decide

end Proxemby
