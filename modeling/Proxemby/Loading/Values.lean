import Proxemby.Lib.Integers
import Proxemby.Logging.Record
import Proxemby.Server.Prefixes
import Proxemby.Server.Routing

/-!
# Configuration values

The first half of `src/config.rs`: the values that one source sets, how they are put over
those of lower sources, and the configuration that is made of them.
-/

namespace Proxemby.Loading

open Text

/-! ## Values -/

def defaultHttpAddr : Str := ":8080".toList

def defaultTlsAddr : Str := ":443".toList

def defaultAcmeCacheDir : Str := ".acme-cache".toList

def defaultStatsAddr : Str := "127.0.0.1:9180".toList

def defaultPlaybackinfoMaxBytes : Int := 8388608

def defaultResponseHeaderTimeoutSecs : Int := 60

def defaultConfigPath : Str := "/etc/proxemby/proxemby.toml".toList

/-- What a source sets; an integer is that of an `i64`. -/
structure Raw where
  routes : Option (List RouteValues) := none
  httpAddr : Option Str := none
  tlsEnable : Option Bool := none
  tlsAddr : Option Str := none
  acmeEmail : Option Str := none
  acmeCacheDir : Option Str := none
  allowedHosts : Option (List Str) := none
  playbackinfoMaxBytes : Option Int := none
  responseHeaderTimeout : Option Int := none
  allowedClients : Option (List Str) := none
  trustProxyHeaders : Option Bool := none
  hideClient : Option Bool := none
  allowedUsers : Option (List Str) := none
  authStateFile : Option Str := none
  statsEnable : Option Bool := none
  statsAddr : Option Str := none
  statsFile : Option Str := none
  debug : Option Bool := none
  logLevel : Option Str := none
  logFormat : Option Str := none
  logTime : Option Bool := none

/-- The values of all sources together; `Values.default` are the defaults. -/
structure Values where
  routes : List RouteValues
  httpAddr : Str
  tlsEnable : Bool
  tlsAddr : Str
  acmeEmail : Str
  acmeCacheDir : Str
  allowedHosts : List Str
  playbackinfoMaxBytes : Int
  responseHeaderTimeout : Int
  allowedClients : List Str
  trustProxyHeaders : Bool
  hideClient : Bool
  allowedUsers : List Str
  authStateFile : Str
  statsEnable : Bool
  statsAddr : Str
  statsFile : Str
  logLevel : Str
  logFormat : Str
  logTime : Bool

def Values.default : Values where
  routes := []
  httpAddr := defaultHttpAddr
  tlsEnable := false
  tlsAddr := defaultTlsAddr
  acmeEmail := []
  acmeCacheDir := defaultAcmeCacheDir
  allowedHosts := []
  playbackinfoMaxBytes := defaultPlaybackinfoMaxBytes
  responseHeaderTimeout := defaultResponseHeaderTimeoutSecs
  allowedClients := []
  trustProxyHeaders := false
  hideClient := false
  allowedUsers := []
  authStateFile := []
  statsEnable := false
  statsAddr := defaultStatsAddr
  statsFile := []
  logLevel := Logging.defaultLevel
  logFormat := Logging.defaultFormat
  logTime := true

/-! ## Reading values -/

def valueOrDefault (value fallback : Str) : Str :=
  let value := trim value
  if value = [] then fallback else value

def cleanStrings (values : List Str) : List Str := (values.map trim).filter (· ≠ [])

def splitCsv (raw : Str) : List Str := ((raw.splitOn ',').map trim).filter (· ≠ [])

def trueTexts : List Str :=
  ["1".toList, "t".toList, "true".toList, "y".toList, "yes".toList, "on".toList]

def parseBool (raw : Str) : Bool := trueTexts.contains (toAsciiLowercase (trim raw))

def parseNonNegativeInt (raw name : Str) : Except Str Int :=
  match readI64 (trim raw) with
  | some value =>
      if 0 ≤ value then .ok value
      else .error (name ++ " must be a non-negative integer".toList)
  | none => .error (name ++ " must be a non-negative integer".toList)

def parsePositiveInt (raw name : Str) : Except Str Int :=
  match readI64 (trim raw) with
  | some value =>
      if 0 < value then .ok value
      else .error (name ++ " must be a positive integer".toList)
  | none => .error (name ++ " must be a positive integer".toList)

section Routes

variable (quote : Str → Str)

/-- An entry of a list of routes: two URLs and perhaps a domain, with commas between them;
`quote` is the debug form of a string. -/
def parseRouteEntry (entry : Str) : Except Str RouteValues :=
  match (entry.splitOn ',').map trim with
  | [upstreamUrl, publicUrl] =>
      if upstreamUrl = [] ∨ publicUrl = [] then
        .error ("route ".toList ++ quote entry ++
          " must include upstream_url and public_url".toList)
      else .ok { upstreamUrl, publicUrl, acmeDomain := [] }
  | [upstreamUrl, publicUrl, acmeDomain] =>
      if upstreamUrl = [] ∨ publicUrl = [] then
        .error ("route ".toList ++ quote entry ++
          " must include upstream_url and public_url".toList)
      else if acmeDomain = [] then
        .error ("route ".toList ++ quote entry ++ " has empty acme_domain".toList)
      else .ok { upstreamUrl, publicUrl, acmeDomain }
  | _ =>
      .error ("route ".toList ++ quote entry ++
        " must have upstream_url,public_url[,acme_domain]".toList)

/-- The entries of a list of routes. -/
def routeEntries (raw : Str) : List Str := ((raw.splitOn ';').map trim).filter (· ≠ [])

def parseRouteValues (raw : Str) : Except Str (List RouteValues) := do
  let routes ← (routeEntries raw).mapM (parseRouteEntry quote)
  if routes = [] then .error "at least one route is required".toList
  else .ok routes

end Routes

/-! ## One source over another -/

/-- The log level that a source asks for: a level wins over the debug flag. -/
def Raw.level (raw : Raw) : Option Str :=
  (raw.logLevel.map trim).or
    (raw.debug.map fun debug => if debug then "debug".toList else Logging.defaultLevel)

def Values.applyRaw (values : Values) (raw : Raw) : Values where
  routes := raw.routes.getD values.routes
  httpAddr := (raw.httpAddr.map (valueOrDefault · defaultHttpAddr)).getD values.httpAddr
  tlsEnable := raw.tlsEnable.getD values.tlsEnable
  tlsAddr := (raw.tlsAddr.map (valueOrDefault · defaultTlsAddr)).getD values.tlsAddr
  acmeEmail := (raw.acmeEmail.map trim).getD values.acmeEmail
  acmeCacheDir :=
    (raw.acmeCacheDir.map (valueOrDefault · defaultAcmeCacheDir)).getD values.acmeCacheDir
  allowedHosts := (raw.allowedHosts.map cleanStrings).getD values.allowedHosts
  playbackinfoMaxBytes := raw.playbackinfoMaxBytes.getD values.playbackinfoMaxBytes
  responseHeaderTimeout := raw.responseHeaderTimeout.getD values.responseHeaderTimeout
  allowedClients := (raw.allowedClients.map cleanStrings).getD values.allowedClients
  trustProxyHeaders := raw.trustProxyHeaders.getD values.trustProxyHeaders
  hideClient := raw.hideClient.getD values.hideClient
  allowedUsers := (raw.allowedUsers.map cleanStrings).getD values.allowedUsers
  authStateFile := (raw.authStateFile.map trim).getD values.authStateFile
  statsEnable := raw.statsEnable.getD values.statsEnable
  statsAddr := (raw.statsAddr.map trim).getD values.statsAddr
  statsFile := (raw.statsFile.map trim).getD values.statsFile
  logLevel := raw.level.getD values.logLevel
  logFormat := (raw.logFormat.map trim).getD values.logFormat
  logTime := raw.logTime.getD values.logTime

/-! ## The configuration -/

structure Config where
  routes : List ParsedRoute
  httpAddr : Str
  tlsEnable : Bool
  tlsAddr : Str
  acmeDomains : List Str
  acmeEmail : Str
  acmeCacheDir : Str
  allowedHosts : List Str
  playbackinfoMaxBytes : Int
  /-- The seconds to wait for upstream response headers; `none` waits forever. -/
  responseHeaderTimeout : Option Nat
  allowedClients : List IpPrefix
  trustProxyHeaders : Bool
  hideClient : Bool
  allowedUsers : List Str
  authStateFile : Str
  statsEnable : Bool
  statsAddr : Str
  statsFile : Str
  logging : Logging.Config
  deriving DecidableEq

section Config

variable (ip : IpText) (quote : Str → Str)

def parseClient (value : Str) : Except Str IpPrefix :=
  match IpPrefix.parse ip quote value with
  | .ok network => .ok network
  | .error e =>
      .error ("allowed clients contains invalid value ".toList ++ quote value ++ ": ".toList ++ e)

/-- The configuration of values with what was parsed of them. -/
def Values.withParsed (values : Values) (routes : List ParsedRoute) (acmeDomains : List Str)
    (allowedClients : List IpPrefix) (logging : Logging.Config) : Config where
  routes
  httpAddr := values.httpAddr
  tlsEnable := values.tlsEnable
  tlsAddr := values.tlsAddr
  acmeDomains
  acmeEmail := trim values.acmeEmail
  acmeCacheDir := values.acmeCacheDir
  allowedHosts := cleanStrings values.allowedHosts
  playbackinfoMaxBytes := values.playbackinfoMaxBytes
  responseHeaderTimeout :=
    if 0 < values.responseHeaderTimeout then some values.responseHeaderTimeout.toNat else none
  allowedClients
  trustProxyHeaders := values.trustProxyHeaders
  hideClient := values.hideClient
  allowedUsers := cleanStrings values.allowedUsers
  authStateFile := trim values.authStateFile
  statsEnable := values.statsEnable
  statsAddr := values.statsAddr
  statsFile := values.statsFile
  logging

def Values.config (values : Values) : Except Str Config := do
  if values.playbackinfoMaxBytes ≤ 0 then
    throw "playbackinfo max bytes must be a positive integer".toList
  if values.responseHeaderTimeout < 0 then
    throw "response header timeout must not be negative".toList
  let allowedClients ← values.allowedClients.mapM (parseClient ip quote)
  let (routes, acmeDomains) ← parseRoutes quote values.routes
  if values.tlsEnable ∧ acmeDomains = [] then
    throw "ACME domains are required when TLS is enabled".toList
  let logging ← Logging.parseConfig values.logLevel values.logFormat values.logTime
  return values.withParsed routes acmeDomains allowedClients logging

end Config

end Proxemby.Loading
