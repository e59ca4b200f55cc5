import Mathlib.Data.List.Infix
import Proxemby.Http

/-!
# Headers of forwarded messages

The header functions of `src/server/mod.rs` and `src/server/route.rs`.
-/

namespace Proxemby

open Text

def hopByHop : List Str :=
  ["connection".toList, "proxy-connection".toList, "keep-alive".toList,
    "proxy-authenticate".toList, "proxy-authorization".toList, "te".toList,
    "trailer".toList, "transfer-encoding".toList, "upgrade".toList]

/-- The headers that name the client, dropped under `hide_client`. -/
def identityHeaders : List Str :=
  ["forwarded".toList, "via".toList, "x-forwarded-for".toList, "x-forwarded-host".toList,
    "x-forwarded-proto".toList, "x-forwarded-protocol".toList, "x-forwarded-ssl".toList,
    "x-real-ip".toList]

/-- The comma-separated parts of the readable values of a header. -/
def headerTokens (headers : HeaderMap) (name : Str) : List Str :=
  ((headers.getAll name).filterMap HeaderValue.toStr).flatMap fun value =>
    (value.splitOn ',').map trim

def headerValuesContainToken (headers : HeaderMap) (name token : Str) : Bool :=
  (headerTokens headers name).any fun t => eqIgnoreAsciiCase t token

/-- The requested upgrade protocol, if any. -/
def upgradeType (headers : HeaderMap) : Option HeaderValue :=
  if headerValuesContainToken headers "connection".toList "upgrade".toList then
    headers.get "upgrade".toList
  else none

/-- Remove some headers. -/
def HeaderMap.removeAll (headers : HeaderMap) (names : List Str) : HeaderMap :=
  names.foldl HeaderMap.remove headers

@[simp] theorem HeaderMap.getAll_removeAll (headers : HeaderMap) (names : List Str)
    (other : Str) :
    (headers.removeAll names).getAll other =
      if other ∈ names then [] else headers.getAll other := by
  induction names generalizing headers with
  | nil => simp [removeAll]
  | cons name names ih =>
      rw [removeAll, List.foldl_cons, ← removeAll, ih, getAll_remove]
      by_cases same : other = name
      · simp [same]
      · simp [same]

/-- Remove hop-by-hop headers, including the ones named in `Connection`. -/
def removeHopByHop (headers : HeaderMap) : HeaderMap :=
  let named := (headerTokens headers "connection".toList).filterMap headerName
  (headers.removeAll named).removeAll hopByHop

/-- Prepare client request headers for forwarding like Go's
`httputil.ReverseProxy`: drop hop-by-hop and forwarding headers, keep
`Te: trailers` and re-add upgrade headers. -/
def prepareOutboundHeaders (headers : HeaderMap) (upgrade : Option HeaderValue) :
    HeaderMap :=
  let teTrailers := headerValuesContainToken headers "te".toList "trailers".toList
  let headers := removeHopByHop headers
  let headers :=
    if teTrailers then headers.insert "te".toList (.fromStatic "trailers") else headers
  let headers :=
    match upgrade with
    | some upgrade =>
        (headers.insert "connection".toList (.fromStatic "Upgrade")).insert
          "upgrade".toList upgrade
    | none => headers
  (headers.removeAll ["forwarded".toList, "x-forwarded-for".toList,
    "x-forwarded-host".toList, "x-forwarded-proto".toList]).remove "host".toList

/-- ASCII capitals among octets made small. -/
def asciiLowercaseBytes (bytes : Bytes) : Bytes :=
  bytes.map fun b => if 0x41 ≤ b && b ≤ 0x5A then b + 0x20 else b

def eqIgnoreAsciiCaseBytes (left right : Bytes) : Bool :=
  asciiLowercaseBytes left == asciiLowercaseBytes right

def isJsonContentType (headers : HeaderMap) : Bool :=
  ((headers.get "content-type".toList).bind HeaderValue.toStr).any fun ct =>
    let ct := toAsciiLowercase ct
    decide ("application/json".toList <:+: ct) || decide ("+json".toList <:+: ct)

/-- Declare a buffered body: its length, and no coding. -/
def setFullBody (headers : HeaderMap) (len : Nat) : HeaderMap :=
  (headers.insert "content-length".toList (Utf8.encode (Nat.repr len).toList)).remove
    "content-encoding".toList

end Proxemby
