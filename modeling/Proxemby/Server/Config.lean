import Proxemby.Auth.Store
import Proxemby.Lib.Rfc8259
import Proxemby.Server.ClientFilter

/-!
# What the server is given

The configuration that the request path reads, and the crates it calls.
-/

namespace Proxemby

open Rfc8259

structure Route where
  upstreamUrl : HttpUrl
  publicUrl : HttpUrl
  deriving DecidableEq

/-- The fields of the configuration that requests depend on. -/
structure Config where
  routes : List Route
  allowedHosts : List Str
  playbackinfoMaxBytes : Int
  allowedClients : List IpPrefix
  trustProxyHeaders : Bool
  hideClient : Bool
  allowedUsers : List Str
  authStateFile : Str
  deriving DecidableEq

/-- The crates and library tables that the server calls.  `toLowercase` is the
Unicode map of `str::to_lowercase`; `parseUri` gives the path of a text that
`http::Uri` accepts; `gunzip` gives the octets that the gzip decoder yields and the
error it stops with, if any; `parseJson` and `toJson` are those of `serde_json`. -/
structure Crates extends StoreCrates where
  toLowercase : Str → Str
  ip : IpText
  parseUri : Str → Option Str
  gunzip : Bytes → Bytes × Option Str
  parseJson : Bytes → Option Json
  toJson : Str → Str

/-- `http::Uri` refuses a percent escape in a host outside brackets; in the brackets of an
IPv6 address it takes one, as a zone. -/
def Crates.RefusesEscapedHosts (crates : Crates) : Prop :=
  ∀ scheme host rest, scheme = "http".toList ∨ scheme = "https".toList → '%' ∈ host →
    (∀ c ∈ host, c ≠ '[' ∧ c ≠ '@' ∧ c ≠ '/' ∧ c ≠ '?' ∧ c ≠ '#') →
    crates.parseUri (scheme ++ "://".toList ++ host ++ '/' :: rest) = none

/-- The member of an object; of several with one name the last one counts. -/
def jsonGet (key : String) : Json → Option Json
  | .object members => (members.findRev? fun member => member.1 = key.toList).map fun m => m.2
  | _ => none

def jsonStr : Json → Option Str
  | .string value => some value
  | _ => none

/-- What the proxy reads in the answer to a login. -/
structure LoginReply where
  token : Str
  userName : Str
  userId : Str

def LoginReply.ofJson (json : Json) : LoginReply :=
  let user := jsonGet "User" json
  { token := ((jsonGet "AccessToken" json).bind jsonStr).getD []
    userName := ((user.bind (jsonGet "Name")).bind jsonStr).getD []
    userId := ((user.bind (jsonGet "Id")).bind jsonStr).getD [] }

end Proxemby
