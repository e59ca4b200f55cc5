import Proxemby.Loading.Flags

/-!
# Configuration sources

The environment and the configuration file, and `from_sources` of `src/config.rs`: defaults
below the file, the environment and the command line.
-/

namespace Proxemby.Loading

open Text

/-! ## Environment -/

/-- The map that `env_map` makes of the environment. -/
abbrev Env := Str → Option Str

/-- A variable that is not blank, without the white space around it. -/
def Env.nonEmpty (env : Env) (name : Str) : Option Str :=
  ((env name).map trim).filter (· ≠ [])

def Env.boolean (env : Env) (name : Str) : Option Bool := (env name).map parseBool

/-- What the environment sets, with what was parsed of it. -/
def Raw.withParsed (env : Env) (routes : Option (List RouteValues))
    (playbackinfoMaxBytes responseHeaderTimeout : Option Int) : Raw where
  routes
  httpAddr := env.nonEmpty "PROXEMBY_HTTP_ADDR".toList
  tlsEnable := env.boolean "PROXEMBY_TLS_ENABLE".toList
  tlsAddr := env.nonEmpty "PROXEMBY_TLS_ADDR".toList
  acmeEmail := env.nonEmpty "PROXEMBY_ACME_EMAIL".toList
  acmeCacheDir := env.nonEmpty "PROXEMBY_ACME_CACHE_DIR".toList
  allowedHosts := (env.nonEmpty "PROXEMBY_ALLOWED_HOSTS".toList).map splitCsv
  playbackinfoMaxBytes
  responseHeaderTimeout
  allowedClients := (env.nonEmpty "PROXEMBY_ALLOWED_CLIENTS".toList).map splitCsv
  trustProxyHeaders := env.boolean "PROXEMBY_TRUST_PROXY_HEADERS".toList
  hideClient := env.boolean "PROXEMBY_HIDE_CLIENT".toList
  allowedUsers := (env.nonEmpty "PROXEMBY_ALLOWED_USERS".toList).map splitCsv
  authStateFile := env.nonEmpty "PROXEMBY_AUTH_STATE_FILE".toList
  statsEnable := env.boolean "PROXEMBY_STATS_ENABLE".toList
  -- an empty address is one: it turns the admin listener off
  statsAddr := env "PROXEMBY_STATS_ADDR".toList
  statsFile := env.nonEmpty "PROXEMBY_STATS_FILE".toList
  debug := env.boolean "PROXEMBY_DEBUG".toList
  logLevel := env.nonEmpty "PROXEMBY_LOG_LEVEL".toList
  logFormat := env.nonEmpty "PROXEMBY_LOG_FORMAT".toList
  logTime := env.boolean "PROXEMBY_LOG_TIME".toList

def Raw.ofEnv (quote : Str → Str) (env : Env) : Except Str Raw := do
  let playbackinfoMaxBytes := "PROXEMBY_PLAYBACKINFO_MAX_BYTES".toList
  let responseHeaderTimeout := "PROXEMBY_RESPONSE_HEADER_TIMEOUT".toList
  let routes ← (env.nonEmpty "PROXEMBY_ROUTE".toList).mapM (parseRouteValues quote)
  let maxBytes ←
    (env.nonEmpty playbackinfoMaxBytes).mapM (parsePositiveInt · playbackinfoMaxBytes)
  let timeout ←
    (env.nonEmpty responseHeaderTimeout).mapM (parseNonNegativeInt · responseHeaderTimeout)
  return Raw.withParsed env routes maxBytes timeout

def Values.applyEnv (quote : Str → Str) (values : Values) (env : Env) : Except Str Values :=
  (Raw.ofEnv quote env).map values.applyRaw

/-! ## Configuration file -/

structure TomlServer where
  httpAddr : Option Str := none

structure TomlTls where
  enable : Option Bool := none
  addr : Option Str := none
  acmeEmail : Option Str := none
  acmeCacheDir : Option Str := none

structure TomlProxy where
  allowedHosts : Option (List Str) := none
  playbackinfoMaxBytes : Option Int := none
  responseHeaderTimeout : Option Int := none
  hideClient : Option Bool := none

structure TomlClients where
  allowed : Option (List Str) := none
  trustProxyHeaders : Option Bool := none

structure TomlAuth where
  allowedUsers : Option (List Str) := none
  stateFile : Option Str := none

structure TomlStats where
  enable : Option Bool := none
  addr : Option Str := none
  file : Option Str := none

structure TomlLogging where
  debug : Option Bool := none
  level : Option Str := none
  format : Option Str := none
  time : Option Bool := none

structure TomlRoute where
  upstreamUrl : Str := []
  publicUrl : Str := []
  acmeDomain : Str := []

structure TomlConfig where
  routes : Option (List TomlRoute) := none
  server : TomlServer := {}
  tls : TomlTls := {}
  proxy : TomlProxy := {}
  clients : TomlClients := {}
  auth : TomlAuth := {}
  stats : TomlStats := {}
  logging : TomlLogging := {}

structure IoError where
  notFound : Bool
  text : Str

/-- The file system, and the reader of the text of a file. -/
structure Files where
  readToString : Str → Except IoError Str
  fromStr : Str → Except Str TomlConfig

def Raw.ofToml (cfg : TomlConfig) : Raw where
  routes := cfg.routes.map fun routes => routes.map fun r =>
    { upstreamUrl := r.upstreamUrl, publicUrl := r.publicUrl, acmeDomain := r.acmeDomain }
  httpAddr := cfg.server.httpAddr
  tlsEnable := cfg.tls.enable
  tlsAddr := cfg.tls.addr
  acmeEmail := cfg.tls.acmeEmail
  acmeCacheDir := cfg.tls.acmeCacheDir
  allowedHosts := cfg.proxy.allowedHosts
  playbackinfoMaxBytes := cfg.proxy.playbackinfoMaxBytes
  responseHeaderTimeout := cfg.proxy.responseHeaderTimeout
  allowedClients := cfg.clients.allowed
  trustProxyHeaders := cfg.clients.trustProxyHeaders
  hideClient := cfg.proxy.hideClient
  allowedUsers := cfg.auth.allowedUsers
  authStateFile := cfg.auth.stateFile
  statsEnable := cfg.stats.enable
  statsAddr := cfg.stats.addr
  statsFile := cfg.stats.file
  debug := cfg.logging.debug
  logLevel := cfg.logging.level
  logFormat := cfg.logging.format
  logTime := cfg.logging.time

def rawFromTomlFile (files : Files) (path : Str) : Except IoError Raw :=
  match files.readToString path with
  | .error e => .error e
  | .ok text =>
      match files.fromStr text with
      | .error e => .error { notFound := false, text := e }
      | .ok cfg => .ok (Raw.ofToml cfg)

/-! ## All sources -/

inductive Error where
  | help
  | version
  | invalid (msg : Str)

section Load

variable (files : Files) (ip : IpText) (quote : Str → Str)

/-- The values of the file over the defaults; only the default file may be missing. -/
def Values.ofFile (configPath : Option Str) (defaultPath : Str) : Except Str Values :=
  let path := (configPath.map trim).getD defaultPath
  if path = [] then .ok Values.default
  else
    match rawFromTomlFile files path with
    | .ok raw => .ok (Values.default.applyRaw raw)
    | .error e =>
        if configPath = none ∧ e.notFound then .ok Values.default
        else .error ("load config ".toList ++ path ++ ": ".toList ++ e.text)

/-- The second half of `from_sources_with_default`. -/
def loadSources (cli : Cli) (env : Env) (defaultPath : Str) : Except Str Config := do
  let values ← Values.ofFile files cli.configPath defaultPath
  let values ← values.applyEnv quote env
  (values.applyRaw cli.raw).config ip quote

def fromSourcesWithDefault (args : List Str) (env : Env) (defaultPath : Str) :
    Except Error Config :=
  match parseFlags quote args with
  | .error e => .error (.invalid e)
  | .ok cli =>
      if cli.help then .error .help
      else if cli.version then .error .version
      else (loadSources files ip quote cli env defaultPath).mapError .invalid

def fromSources (args : List Str) (env : Env) : Except Error Config :=
  fromSourcesWithDefault files ip quote args env defaultConfigPath

end Load

end Proxemby.Loading
