import Proxemby.Loading.FlagGrammar
import Proxemby.Loading.Sources

/-!
# Which source a value comes from

Each option on its own: what the command line, the environment and the file set it to, what
the configuration makes of such a value, and that `from_sources` takes the value of the highest
source that sets the option.
-/

namespace Proxemby.Loading

open Text

/-! ## Options in each source -/

/-- The variable of an option. -/
def Flag.envName : Flag → Option Str
  | .route => some "PROXEMBY_ROUTE".toList
  | .httpAddr => some "PROXEMBY_HTTP_ADDR".toList
  | .tlsEnable => some "PROXEMBY_TLS_ENABLE".toList
  | .tlsAddr => some "PROXEMBY_TLS_ADDR".toList
  | .acmeEmail => some "PROXEMBY_ACME_EMAIL".toList
  | .acmeCacheDir => some "PROXEMBY_ACME_CACHE_DIR".toList
  | .allowedHosts => some "PROXEMBY_ALLOWED_HOSTS".toList
  | .playbackinfoMaxBytes => some "PROXEMBY_PLAYBACKINFO_MAX_BYTES".toList
  | .allowedClients => some "PROXEMBY_ALLOWED_CLIENTS".toList
  | .trustProxyHeaders => some "PROXEMBY_TRUST_PROXY_HEADERS".toList
  | .hideClient => some "PROXEMBY_HIDE_CLIENT".toList
  | .allowedUsers => some "PROXEMBY_ALLOWED_USERS".toList
  | .authStateFile => some "PROXEMBY_AUTH_STATE_FILE".toList
  | .debug => some "PROXEMBY_DEBUG".toList
  | .logLevel => some "PROXEMBY_LOG_LEVEL".toList
  | .logFormat => some "PROXEMBY_LOG_FORMAT".toList
  | .logTime => some "PROXEMBY_LOG_TIME".toList
  | .responseHeaderTimeout => some "PROXEMBY_RESPONSE_HEADER_TIMEOUT".toList
  | .statsEnable => some "PROXEMBY_STATS_ENABLE".toList
  | .statsAddr => some "PROXEMBY_STATS_ADDR".toList
  | .statsFile => some "PROXEMBY_STATS_FILE".toList
  | .config | .help | .version => none

/-- A value that is not blank, without the white space around it. -/
def nonBlank (value : Str) : Option Str := if trim value = [] then none else some (trim value)

/-- What the value of a variable sets its option to.  A blank value sets nothing, but for a
switch and for the address of the statistics; a list is what stands between the commas. -/
def Flag.ofVariable (quote : Str → Str) : (flag : Flag) → Str → Option flag.Value
  | .route, value => (nonBlank value).bind fun value => (parseRouteValues quote value).toOption
  | .tlsEnable, value | .trustProxyHeaders, value | .hideClient, value | .debug, value
  | .logTime, value | .statsEnable, value | .help, value | .version, value =>
      some (parseBool value)
  | .playbackinfoMaxBytes, value | .responseHeaderTimeout, value =>
      (nonBlank value).bind readI64
  | .allowedHosts, value | .allowedClients, value | .allowedUsers, value =>
      (nonBlank value).map (List.splitOn ',')
  | .statsAddr, value => some value
  | .config, value | .httpAddr, value | .tlsAddr, value | .acmeEmail, value
  | .acmeCacheDir, value | .authStateFile, value | .logLevel, value | .logFormat, value
  | .statsFile, value => nonBlank value

/-- What an argument sets its option to, where a list is again what stands between the commas;
for the routes all arguments count. -/
def Flag.ofArgument : (flag : Flag) → Str → Option flag.Value
  | .route, _ => none
  | .tlsEnable, value | .trustProxyHeaders, value | .hideClient, value | .debug, value
  | .logTime, value | .statsEnable, value | .help, value | .version, value => parseGoBool value
  | .playbackinfoMaxBytes, value | .responseHeaderTimeout, value => readI64 (trim value)
  | .allowedHosts, value | .allowedClients, value | .allowedUsers, value =>
      some (value.splitOn ',')
  | .config, value | .httpAddr, value | .tlsAddr, value | .acmeEmail, value
  | .acmeCacheDir, value | .authStateFile, value | .logLevel, value | .logFormat, value
  | .statsAddr, value | .statsFile, value => some value

def TomlRoute.values (route : TomlRoute) : RouteValues where
  upstreamUrl := route.upstreamUrl
  publicUrl := route.publicUrl
  acmeDomain := route.acmeDomain

/-- What the file sets an option to. -/
def TomlConfig.get (cfg : TomlConfig) : (flag : Flag) → Option flag.Value
  | .route => cfg.routes.map (List.map TomlRoute.values)
  | .httpAddr => cfg.server.httpAddr
  | .tlsEnable => cfg.tls.enable
  | .tlsAddr => cfg.tls.addr
  | .acmeEmail => cfg.tls.acmeEmail
  | .acmeCacheDir => cfg.tls.acmeCacheDir
  | .allowedHosts => cfg.proxy.allowedHosts
  | .playbackinfoMaxBytes => cfg.proxy.playbackinfoMaxBytes
  | .responseHeaderTimeout => cfg.proxy.responseHeaderTimeout
  | .hideClient => cfg.proxy.hideClient
  | .allowedClients => cfg.clients.allowed
  | .trustProxyHeaders => cfg.clients.trustProxyHeaders
  | .allowedUsers => cfg.auth.allowedUsers
  | .authStateFile => cfg.auth.stateFile
  | .statsEnable => cfg.stats.enable
  | .statsAddr => cfg.stats.addr
  | .statsFile => cfg.stats.file
  | .debug => cfg.logging.debug
  | .logLevel => cfg.logging.level
  | .logFormat => cfg.logging.format
  | .logTime => cfg.logging.time
  | .config | .help | .version => none

/-- What an option is where no source sets it. -/
def Flag.default : (flag : Flag) → flag.Value
  | .config => defaultConfigPath
  | .route => []
  | .httpAddr => defaultHttpAddr
  | .tlsAddr => defaultTlsAddr
  | .acmeCacheDir => defaultAcmeCacheDir
  | .playbackinfoMaxBytes => defaultPlaybackinfoMaxBytes
  | .responseHeaderTimeout => defaultResponseHeaderTimeoutSecs
  | .statsAddr => defaultStatsAddr
  | .logLevel => Logging.defaultLevel
  | .logFormat => Logging.defaultFormat
  | .logTime => true
  | .tlsEnable | .trustProxyHeaders | .hideClient | .debug | .statsEnable | .help | .version =>
      false
  | .acmeEmail | .authStateFile | .statsFile => ([] : Str)
  | .allowedHosts | .allowedClients | .allowedUsers => ([] : List Str)

/-! ## Options in the configuration -/

/-- What the configuration holds for an option, if the option has a place of its own there. -/
def Flag.Parsed : Flag → Type
  | .route => List ParsedRoute × List Str
  | .tlsEnable | .trustProxyHeaders | .hideClient | .logTime | .statsEnable => Bool
  | .playbackinfoMaxBytes => Int
  | .responseHeaderTimeout => Option Nat
  | .allowedHosts | .allowedUsers => List Str
  | .allowedClients => List IpPrefix
  | .httpAddr | .tlsAddr | .acmeEmail | .acmeCacheDir | .authStateFile | .statsAddr
  | .statsFile => Str
  | .logFormat => Logging.Format
  | .config | .help | .version | .debug | .logLevel => Unit

/-- The seconds to wait, where zero is for ever. -/
def timeoutOf (seconds : Int) : Option Nat := if 0 < seconds then some seconds.toNat else none

/-- The texts of a list that are not blank, each without the white space around it. -/
inductive Cleans : List Str → List Str → Prop where
  | nil : Cleans [] []
  | blank {raw : Str} {raws values : List Str} : (∀ c ∈ raw, isWhitespace c = true) →
      Cleans raws values → Cleans (raw :: raws) values
  | kept {raw value : Str} {raws values : List Str} : Trims isWhitespace raw value → value ≠ [] →
      Cleans raws values → Cleans (raw :: raws) (value :: values)

/-- A text without the white space around it, or the default for a blank text. -/
def Replaces (fallback raw value : Str) : Prop :=
  (∀ c ∈ raw, isWhitespace c = true) ∧ value = fallback ∨
    Trims isWhitespace raw value ∧ value ≠ []

/-- The normalised form of a value: a text is trimmed, where the default stands for a blank one
of the two listen addresses and of the directory of the certificates; a list has its texts
trimmed and the blank ones dropped. -/
def Flag.Normal (ip : IpText) (quote : Str → Str) :
    (flag : Flag) → flag.Value → flag.Parsed → Prop
  | .route, value, parsed => parseRoutes quote value = .ok parsed
  | .tlsEnable, value, parsed | .trustProxyHeaders, value, parsed | .hideClient, value, parsed
  | .logTime, value, parsed | .statsEnable, value, parsed => parsed = value
  | .playbackinfoMaxBytes, value, parsed => parsed = value
  | .responseHeaderTimeout, value, parsed => parsed = timeoutOf value
  | .allowedHosts, value, parsed | .allowedUsers, value, parsed => Cleans value parsed
  | .allowedClients, value, parsed =>
      ∃ texts, Cleans value texts ∧
        List.Forall₂ (fun text client => parseClient ip quote text = .ok client) texts parsed
  | .httpAddr, value, parsed => Replaces defaultHttpAddr value parsed
  | .tlsAddr, value, parsed => Replaces defaultTlsAddr value parsed
  | .acmeCacheDir, value, parsed => Replaces defaultAcmeCacheDir value parsed
  | .acmeEmail, value, parsed | .authStateFile, value, parsed | .statsAddr, value, parsed
  | .statsFile, value, parsed => Trims isWhitespace value parsed
  | .logFormat, value, parsed =>
      ∃ text, Trims isWhitespace value text ∧ Logging.parseFormat text = .ok parsed
  | .config, _, _ | .help, _, _ | .version, _, _ | .debug, _, _ | .logLevel, _, _ => True

/-- What the configuration makes of a value. -/
def Flag.parse (ip : IpText) (quote : Str → Str) :
    (flag : Flag) → flag.Value → Except Str flag.Parsed
  | .route, value => parseRoutes quote value
  | .tlsEnable, value | .trustProxyHeaders, value | .hideClient, value | .logTime, value
  | .statsEnable, value => .ok value
  | .playbackinfoMaxBytes, value => .ok value
  | .responseHeaderTimeout, value => .ok (timeoutOf value)
  | .allowedHosts, value | .allowedUsers, value => .ok (cleanStrings value)
  | .allowedClients, value => (cleanStrings value).mapM (parseClient ip quote)
  | .httpAddr, value => .ok (valueOrDefault value defaultHttpAddr)
  | .tlsAddr, value => .ok (valueOrDefault value defaultTlsAddr)
  | .acmeCacheDir, value => .ok (valueOrDefault value defaultAcmeCacheDir)
  | .acmeEmail, value | .authStateFile, value | .statsAddr, value | .statsFile, value =>
      .ok (trim value)
  | .logFormat, value => Logging.parseFormat (trim value)
  | .config, _ | .help, _ | .version, _ | .debug, _ | .logLevel, _ => .ok ()

theorem replaces_iff {fallback raw value : Str} :
    Replaces fallback raw value ↔ valueOrDefault raw fallback = value := by
  rw [Replaces, trims_iff, ← trimMatches_eq_nil_iff, valueOrDefault]
  change trim raw = [] ∧ value = fallback ∨ trim raw = value ∧ value ≠ [] ↔
    (if trim raw = [] then fallback else trim raw) = value
  by_cases blank : trim raw = []
  · rw [if_pos blank, blank, eq_comm (b := fallback)]
    tauto
  · rw [if_neg blank]
    constructor
    · rintro (⟨none, -⟩ | ⟨same, -⟩)
      · exact absurd none blank
      · exact same
    · rintro rfl
      exact .inr ⟨rfl, blank⟩

theorem cleans_cleanStrings (raws : List Str) : Cleans raws (cleanStrings raws) := by
  induction raws with
  | nil => exact .nil
  | cons raw raws ih =>
      by_cases blank : trim raw = []
      · have dropped : cleanStrings (raw :: raws) = cleanStrings raws := by
          simp [cleanStrings, blank]
        rw [dropped]
        exact .blank (trimMatches_eq_nil_iff.mp blank) ih
      · have kept : cleanStrings (raw :: raws) = trim raw :: cleanStrings raws := by
          simp [cleanStrings, blank]
        rw [kept]
        exact .kept (trims_iff.mpr rfl) blank ih

theorem cleans_iff {raws values : List Str} : Cleans raws values ↔ cleanStrings raws = values := by
  constructor
  · intro cleans
    induction cleans with
    | nil => rfl
    | blank white _ ih =>
        have none : trim _ = [] := trimMatches_eq_nil_iff.mpr white
        rw [← ih]
        simp [cleanStrings, none]
    | kept trims some _ ih =>
        obtain rfl : trim _ = _ := trims_iff.mp trims
        rw [← ih]
        simp [cleanStrings, some]
  · rintro rfl
    exact cleans_cleanStrings raws

/-- The configuration makes the normalised form of a value. -/
theorem Flag.normal_iff {ip : IpText} {quote : Str → Str} {flag : Flag} {value : flag.Value}
    {parsed : flag.Parsed} :
    flag.Normal ip quote value parsed ↔ flag.parse ip quote value = .ok parsed := by
  have ok {α : Type} {made parsed : α} :
      made = parsed ↔ (Except.ok made : Except Str α) = .ok parsed :=
    (Iff.of_eq (Except.ok.injEq made parsed)).symm
  cases flag
  case route => exact Iff.rfl
  case tlsEnable | trustProxyHeaders | hideClient | logTime | statsEnable
      | playbackinfoMaxBytes | responseHeaderTimeout => exact eq_comm.trans ok
  case allowedHosts | allowedUsers => exact cleans_iff.trans ok
  case allowedClients =>
    constructor
    · rintro ⟨texts, cleans, parsed⟩
      obtain rfl := cleans_iff.mp cleans
      exact Results.mapM_eq_ok.mpr parsed
    · intro parsed
      exact ⟨_, cleans_cleanStrings value, Results.mapM_eq_ok.mp parsed⟩
  case httpAddr | tlsAddr | acmeCacheDir => exact replaces_iff.trans ok
  case acmeEmail | authStateFile | statsAddr | statsFile => exact trims_iff.trans ok
  case logFormat =>
    constructor
    · rintro ⟨text, trims, parsed⟩
      obtain rfl := trims_iff.mp trims
      exact parsed
    · exact fun parsed => ⟨trim value, trims_iff.mpr rfl, parsed⟩
  case config | help | version | debug | logLevel => exact ⟨fun _ => rfl, fun _ => trivial⟩

def Config.get (cfg : Config) : (flag : Flag) → flag.Parsed
  | .route => (cfg.routes, cfg.acmeDomains)
  | .httpAddr => cfg.httpAddr
  | .tlsEnable => cfg.tlsEnable
  | .tlsAddr => cfg.tlsAddr
  | .acmeEmail => cfg.acmeEmail
  | .acmeCacheDir => cfg.acmeCacheDir
  | .allowedHosts => cfg.allowedHosts
  | .playbackinfoMaxBytes => cfg.playbackinfoMaxBytes
  | .responseHeaderTimeout => cfg.responseHeaderTimeout
  | .allowedClients => cfg.allowedClients
  | .trustProxyHeaders => cfg.trustProxyHeaders
  | .hideClient => cfg.hideClient
  | .allowedUsers => cfg.allowedUsers
  | .authStateFile => cfg.authStateFile
  | .statsEnable => cfg.statsEnable
  | .statsAddr => cfg.statsAddr
  | .statsFile => cfg.statsFile
  | .logFormat => cfg.logging.format
  | .logTime => cfg.logging.time
  | .config | .help | .version | .debug | .logLevel => ()

/-! ## All sources -/

/-- The flags of the command line with its routes, the environment, and the content of the
file. -/
structure Sources where
  uses : Uses
  routes : Option (List RouteValues)
  env : Env
  toml : TomlConfig

/-- The content of the file; a file that is missing has none, if no flag names it. -/
def IsFile (files : Files) (configPath : Option Str) (toml : TomlConfig) : Prop :=
  let path := (configPath.map trim).getD defaultConfigPath
  path = [] ∧ toml = {} ∨
    path ≠ [] ∧ (∃ text, files.readToString path = .ok text ∧ files.fromStr text = .ok toml) ∨
    path ≠ [] ∧ configPath = none ∧ toml = {} ∧
      ∃ e, files.readToString path = .error e ∧ e.notFound = true

/-- The sources that arguments, an environment and files are. -/
structure Sources.Of (s : Sources) (files : Files) (args : List Str) (env : Env) : Prop where
  args : ∃ front tail, FlagArgs front s.uses ∧ IsEnd tail ∧ args = front ++ tail
  routes : RoutesOf s.uses s.routes
  env : s.env = env
  toml : IsFile files (lastValue s.uses .config) s.toml

/-- The log level that a source asks for. -/
def levelOf (level : Option Str) (debug : Option Bool) : Option Str :=
  (level.map trim).or
    (debug.map fun debug => if debug then "debug".toList else Logging.defaultLevel)

namespace Sources

variable (quote : Str → Str) (s : Sources)

def cliValue : (flag : Flag) → Option flag.Value
  | .route => s.routes
  | flag => (lastValue s.uses flag).bind flag.ofArgument

def envValue (flag : Flag) : Option flag.Value :=
  (flag.envName.bind s.env).bind (flag.ofVariable quote)

/-- The value of the highest source that sets an option. -/
def value (flag : Flag) : flag.Value :=
  ((s.cliValue flag).or ((s.envValue quote flag).or (s.toml.get flag))).getD flag.default

/-- The level of the highest source that sets the level or the debug flag. -/
def level : Str :=
  ((levelOf (s.cliValue .logLevel) (s.cliValue .debug)).or
    ((levelOf (s.envValue quote .logLevel) (s.envValue quote .debug)).or
      (levelOf (s.toml.get .logLevel) (s.toml.get .debug)))).getD Logging.defaultLevel

/-- An option is the same in two sources, down to the highest that sets it. -/
def Agree (flag : Flag) (s s' : Sources) : Prop :=
  s.cliValue flag = s'.cliValue flag ∧
    (s.cliValue flag = none → s.envValue quote flag = s'.envValue quote flag ∧
      (s.envValue quote flag = none → s.toml.get flag = s'.toml.get flag))

theorem value_of_agree {flag : Flag} {s s' : Sources} (agree : Agree quote flag s s') :
    s.value quote flag = s'.value quote flag := by
  obtain ⟨cli, lower⟩ := agree
  cases set : s.cliValue flag with
  | some given => rw [value, value, ← cli, set, Option.some_or, Option.some_or]
  | none =>
      obtain ⟨env, file⟩ := lower set
      cases set' : s.envValue quote flag with
      | some given =>
          rw [value, value, ← cli, ← env, set, set', Option.none_or, Option.none_or, Option.some_or,
            Option.some_or]
      | none => rw [value, value, ← cli, ← env, file set']

end Sources

/-! ## Values over values -/

section Layers

variable {ip : IpText} {quote : Str → Str}

theorem config_eq_ok {values : Values} {cfg : Config} :
    values.config ip quote = .ok cfg ↔
      ¬values.playbackinfoMaxBytes ≤ 0 ∧ ¬values.responseHeaderTimeout < 0 ∧
        ∃ allowedClients, values.allowedClients.mapM (parseClient ip quote) = .ok allowedClients ∧
          ∃ parsed, parseRoutes quote values.routes = .ok parsed ∧
            ¬(values.tlsEnable = true ∧ parsed.2 = []) ∧
            ∃ logging,
              Logging.parseConfig values.logLevel values.logFormat values.logTime = .ok logging ∧
              values.withParsed parsed.1 parsed.2 allowedClients logging = cfg := by
  rw [Values.config]
  simp only [Results.unless_eq_ok, Results.bind_eq_ok, pure, Except.pure, Except.ok.injEq]

/-- Values of three sources over a default, each changed on its own. -/
theorem getD_layers {α β : Type} {high middle low : Option α} {default : α} {fallback : β}
    (change : α → β) (fixed : change default = fallback) :
    (high.map change).getD ((middle.map change).getD ((low.map change).getD fallback)) =
      change ((high.or (middle.or low)).getD default) := by
  subst fixed
  cases high <;> cases middle <;> cases low <;> rfl

theorem getD_or {α : Type} {high middle low : Option α} {default : α} :
    high.getD (middle.getD (low.getD default)) = (high.or (middle.or low)).getD default := by
  rw [Option.getD_or, Option.getD_or]

theorem cleanStrings_cleanStrings (values : List Str) :
    cleanStrings (cleanStrings values) = cleanStrings values := by
  have clean {value : Str} (member : value ∈ cleanStrings values) :
      trim value = value ∧ value ≠ [] := by
    rw [cleanStrings, List.mem_filter, List.mem_map] at member
    obtain ⟨⟨raw, -, rfl⟩, some⟩ := member
    exact ⟨trim_trim raw, by simpa using some⟩
  have trimmed : (cleanStrings values).map trim = cleanStrings values :=
    (List.map_congr_left fun value member => (clean member).1).trans (List.map_id _)
  rw [cleanStrings, trimmed, List.filter_eq_self]
  intro value member
  simpa using (clean member).2

/-- The cleaning that a list has had where a source read it from one text. -/
def Flag.clean : (flag : Flag) → flag.Value → flag.Value
  | .allowedHosts, values | .allowedClients, values | .allowedUsers, values => cleanStrings values
  | .config, value | .route, value | .httpAddr, value | .tlsEnable, value | .tlsAddr, value
  | .acmeEmail, value | .acmeCacheDir, value | .playbackinfoMaxBytes, value
  | .trustProxyHeaders, value | .hideClient, value | .authStateFile, value | .debug, value
  | .logLevel, value | .logFormat, value | .logTime, value | .responseHeaderTimeout, value
  | .statsEnable, value | .statsAddr, value | .statsFile, value | .help, value
  | .version, value => value

theorem Flag.map_clean {flag : Flag}
    (single : flag ≠ .allowedHosts ∧ flag ≠ .allowedClients ∧ flag ≠ .allowedUsers)
    (value : Option flag.Value) : value.map flag.clean = value := by
  obtain ⟨noHosts, noClients, noUsers⟩ := single
  cases flag
  case allowedHosts => exact absurd rfl noHosts
  case allowedClients => exact absurd rfl noClients
  case allowedUsers => exact absurd rfl noUsers
  all_goals exact Option.map_id_apply

theorem Flag.parse_clean (flag : Flag) (value : flag.Value) :
    flag.parse ip quote (flag.clean value) = flag.parse ip quote value := by
  cases flag
  case allowedHosts | allowedUsers => exact congrArg Except.ok (cleanStrings_cleanStrings value)
  case allowedClients =>
    exact congrArg (List.mapM (parseClient ip quote)) (cleanStrings_cleanStrings value)
  all_goals rfl

/-- A list that was cleaned where it was read is not another list in the configuration. -/
theorem Flag.parse_layers {flag : Flag} {high middle low : Option flag.Value}
    {default : flag.Value} :
    flag.parse ip quote
        (((high.map flag.clean).or ((middle.map flag.clean).or low)).getD default) =
      flag.parse ip quote ((high.or (middle.or low)).getD default) := by
  cases high with
  | some value => exact Flag.parse_clean flag value
  | none =>
      cases middle with
      | some value => exact Flag.parse_clean flag value
      | none => rfl

theorem parseConfig_ok {level format : Str} {time : Bool} {logging : Logging.Config} :
    Logging.parseConfig level format time = .ok logging ↔
      Logging.parseLevel level = .ok logging.level ∧
        Logging.parseFormat format = .ok logging.format ∧ logging.time = time := by
  rw [Logging.parseConfig, Results.bind_eq_ok]
  simp only [Results.bind_eq_ok]
  constructor
  · rintro ⟨level, levelParsed, format, formatParsed, same⟩
    obtain rfl := Except.ok.inj same
    exact ⟨levelParsed, formatParsed, rfl⟩
  · rintro ⟨levelParsed, formatParsed, rfl⟩
    exact ⟨logging.level, levelParsed, logging.format, formatParsed, rfl⟩

/-- The highest raw value of each option is the one in the configuration. -/
theorem parse_merged {low middle high : Raw} {cfg : Config}
    (loaded : (((Values.default.applyRaw low).applyRaw middle).applyRaw high).config ip quote =
      .ok cfg) (flag : Flag) :
    flag.parse ip quote
        (((high.get flag).or ((middle.get flag).or (low.get flag))).getD flag.default) =
      .ok (cfg.get flag) := by
  obtain ⟨-, -, clients, clientsParsed, ⟨routes, domains⟩, routesParsed, -, logging,
    loggingParsed, rfl⟩ := config_eq_ok.mp loaded
  obtain ⟨-, formatParsed, time⟩ := parseConfig_ok.mp loggingParsed
  cases flag
  case config | help | version | debug | logLevel => rfl
  case tlsEnable | trustProxyHeaders | hideClient | statsEnable | playbackinfoMaxBytes =>
    exact congrArg Except.ok getD_or.symm
  case logTime => exact congrArg Except.ok (getD_or.symm.trans time.symm)
  case responseHeaderTimeout => exact congrArg (Except.ok ∘ timeoutOf) getD_or.symm
  case httpAddr =>
    exact congrArg Except.ok (getD_layers (valueOrDefault · defaultHttpAddr) rfl).symm
  case tlsAddr => exact congrArg Except.ok (getD_layers (valueOrDefault · defaultTlsAddr) rfl).symm
  case acmeCacheDir =>
    exact congrArg Except.ok (getD_layers (valueOrDefault · defaultAcmeCacheDir) rfl).symm
  case statsAddr | statsFile => exact congrArg Except.ok (getD_layers trim rfl).symm
  case acmeEmail | authStateFile =>
    refine congrArg Except.ok (Eq.trans (trim_trim _).symm ?_)
    exact congrArg trim (getD_layers trim rfl).symm
  case allowedHosts | allowedUsers =>
    refine congrArg Except.ok (Eq.trans (cleanStrings_cleanStrings _).symm ?_)
    exact congrArg cleanStrings (getD_layers cleanStrings rfl).symm
  case allowedClients =>
    refine Eq.trans ?_ clientsParsed
    exact congrArg (List.mapM (parseClient ip quote)) (getD_layers cleanStrings rfl).symm
  case route =>
    refine Eq.trans ?_ routesParsed
    exact congrArg (parseRoutes quote) getD_or.symm
  case logFormat =>
    refine Eq.trans ?_ formatParsed
    exact congrArg Logging.parseFormat (getD_layers trim rfl).symm

theorem parseLevel_merged {low middle high : Raw} {cfg : Config}
    (loaded : (((Values.default.applyRaw low).applyRaw middle).applyRaw high).config ip quote =
      .ok cfg) :
    Logging.parseLevel ((high.level.or (middle.level.or low.level)).getD Logging.defaultLevel) =
      .ok cfg.logging.level := by
  obtain ⟨-, -, clients, -, parsed, -, -, logging, parsedLogging, rfl⟩ := config_eq_ok.mp loaded
  rw [← getD_or]
  exact (parseConfig_ok.mp parsedLogging).1

/-! ## What the sources set -/

theorem nonEmpty_eq {env : Env} {name : Str} : env.nonEmpty name = (env name).bind nonBlank := by
  rw [Env.nonEmpty]
  cases env name with
  | none => rfl
  | some value =>
      by_cases blank : trim value = [] <;> simp [nonBlank, blank, Option.filter]

theorem readI64_of_parsePositiveInt {raw name : Str} {value : Int}
    (parsed : parsePositiveInt raw name = .ok value) : readI64 (trim raw) = some value := by
  rw [parsePositiveInt] at parsed
  split at parsed
  · split at parsed
    · rw [← Except.ok.inj parsed]; assumption
    · exact nomatch parsed
  · exact nomatch parsed

theorem readI64_of_parseNonNegativeInt {raw name : Str} {value : Int}
    (parsed : parseNonNegativeInt raw name = .ok value) : readI64 (trim raw) = some value := by
  rw [parseNonNegativeInt] at parsed
  split at parsed
  · split at parsed
    · rw [← Except.ok.inj parsed]; assumption
    · exact nomatch parsed
  · exact nomatch parsed

/-- An integer that was read from a variable. -/
theorem readI64_of_mapM {env : Env} {name : Str} {check : Str → Except Str Int}
    (reads : ∀ raw value, check raw = .ok value → readI64 (trim raw) = some value)
    {result : Option Int} (checked : (env.nonEmpty name).mapM check = .ok result) :
    result = ((env name).bind nonBlank).bind readI64 := by
  obtain ⟨parsed, rfl⟩ := Results.mapM_option_eq_ok.mp checked
  rw [← nonEmpty_eq]
  cases given : env.nonEmpty name with
  | none => rfl
  | some value =>
      obtain ⟨image, taken⟩ := parsed value given
      have trimmed : trim value = value := by
        rw [Env.nonEmpty, Option.filter_eq_some_iff, Option.map_eq_some_iff] at given
        obtain ⟨⟨raw, -, rfl⟩, -⟩ := given
        exact trim_trim raw
      have same := reads value image taken
      rw [trimmed] at same
      rw [Option.bind_some, Option.bind_some, taken, same]
      rfl

theorem get_ofEnv {env : Env} {raw : Raw} (read : Raw.ofEnv quote env = .ok raw) (flag : Flag) :
    raw.get flag = ((flag.envName.bind env).bind (flag.ofVariable quote)).map flag.clean := by
  rw [Raw.ofEnv] at read
  obtain ⟨routes, routesRead, read⟩ := Results.bind_eq_ok.mp read
  obtain ⟨maxBytes, maxBytesRead, read⟩ := Results.bind_eq_ok.mp read
  obtain ⟨timeout, timeoutRead, same⟩ := Results.bind_eq_ok.mp read
  obtain rfl := Except.ok.inj same
  have text (name : Str) : env.nonEmpty name = (env name).bind nonBlank := nonEmpty_eq
  have list (name : Str) : (env.nonEmpty name).map splitCsv =
      ((env name).bind fun value => (nonBlank value).map (List.splitOn ',')).map cleanStrings := by
    rw [nonEmpty_eq]
    cases env name with
    | none => rfl
    | some value => exact (Option.map_map cleanStrings (List.splitOn ',') (nonBlank value)).symm
  have switch (name : Str) : env.boolean name = (env name).bind (some ∘ parseBool) := by
    rw [Env.boolean]; cases env name <;> rfl
  have int (name : Str) : ((env name).bind nonBlank).bind readI64 =
      (env name).bind fun value => (nonBlank value).bind readI64 := Option.bind_assoc _ _ _
  cases flag
  case config | help | version => rfl
  case allowedHosts | allowedClients | allowedUsers => exact list _
  -- no other option is a list, which leaves nothing to clean
  all_goals rw [Flag.map_clean (by decide)]
  case httpAddr | tlsAddr | acmeEmail | acmeCacheDir | authStateFile | logLevel | logFormat
      | statsFile => exact text _
  case tlsEnable | trustProxyHeaders | hideClient | debug | logTime | statsEnable =>
    exact switch _
  case statsAddr => exact (Option.bind_fun_some _).symm
  case playbackinfoMaxBytes =>
    exact (readI64_of_mapM (fun _ _ => readI64_of_parsePositiveInt) maxBytesRead).trans (int _)
  case responseHeaderTimeout =>
    exact (readI64_of_mapM (fun _ _ => readI64_of_parseNonNegativeInt) timeoutRead).trans (int _)
  case route =>
    obtain ⟨-, rfl⟩ := Results.mapM_option_eq_ok.mp routesRead
    rw [nonEmpty_eq]
    exact Option.bind_assoc _ _ _

theorem get_ofToml (toml : TomlConfig) (flag : Flag) :
    (Raw.ofToml toml).get flag = toml.get flag := by
  cases flag <;> rfl

theorem Flag.read_eq (flag : Flag) (value : Str) :
    flag.read value = (flag.ofArgument value).map flag.clean := by
  cases flag
  case route | allowedHosts | allowedClients | allowedUsers => rfl
  all_goals exact (Flag.map_clean (by decide) _).symm

theorem get_cli {cli : Cli} {s : Sources} (holds : cli.Holds s.uses s.routes) {flag : Flag}
    (option : flag.IsOption) : cli.raw.get flag = (s.cliValue flag).map flag.clean := by
  by_cases route : flag = .route
  · subst route
    rw [Flag.map_clean (by decide)]
    exact holds.routes
  · have given : s.cliValue flag = (lastValue s.uses flag).bind flag.ofArgument := by
      cases flag <;> first | rfl | exact absurd rfl route
    rw [holds.options flag option route, given, Option.map_bind]
    exact congrArg _ (funext flag.read_eq)

theorem ofFile_ok {files : Files} {configPath : Option Str} {values : Values} :
    Values.ofFile files configPath defaultConfigPath = .ok values ↔
      ∃ toml, IsFile files configPath toml ∧
        values = Values.default.applyRaw (Raw.ofToml toml) := by
  simp only [Values.ofFile, IsFile]
  generalize (configPath.map trim).getD defaultConfigPath = path
  constructor
  · intro read
    split at read
    case isTrue none => exact ⟨{}, .inl ⟨none, rfl⟩, (Except.ok.inj read).symm⟩
    case isFalse some =>
        cases content : files.readToString path with
        | error e =>
            simp only [rawFromTomlFile, content] at read
            split at read
            · case isTrue missing =>
                obtain ⟨unnamed, missing⟩ := missing
                refine ⟨{}, .inr (.inr ⟨some, unnamed, rfl, e, rfl, missing⟩), ?_⟩
                exact (Except.ok.inj read).symm
            · exact nomatch read
        | ok text =>
            cases parsed : files.fromStr text with
            | error e => simp [rawFromTomlFile, content, parsed] at read
            | ok toml =>
                simp only [rawFromTomlFile, content, parsed, Except.ok.injEq] at read
                exact ⟨toml, .inr (.inl ⟨some, text, rfl, parsed⟩), read.symm⟩
  · rintro ⟨toml, ⟨none, rfl⟩ | ⟨some, text, content, parsed⟩ |
      ⟨some, unnamed, rfl, e, content, missing⟩, rfl⟩
    · rw [if_pos none]
      rfl
    · simp only [rawFromTomlFile, content, parsed]
      rw [if_neg some]
    · simp only [rawFromTomlFile, content]
      rw [if_neg some, if_pos ⟨unnamed, missing⟩]
      rfl

theorem isFile_unique {files : Files} {configPath : Option Str} {toml toml' : TomlConfig}
    (is : IsFile files configPath toml) (is' : IsFile files configPath toml') : toml = toml' := by
  obtain ⟨none, rfl⟩ | ⟨some, text, read, parsed⟩ | ⟨some, -, rfl, e, read, -⟩ := is
  · obtain ⟨-, rfl⟩ | ⟨some, -⟩ | ⟨some, -⟩ := is'
    · rfl
    · exact absurd none some
    · exact absurd none some
  · obtain ⟨none, -⟩ | ⟨-, text', read', parsed'⟩ | ⟨-, -, -, e, read', -⟩ := is'
    · exact absurd none some
    · rw [read, Except.ok.injEq] at read'
      rw [← read', parsed, Except.ok.injEq] at parsed'
      exact parsed'
    · rw [read] at read'
      exact nomatch read'
  · obtain ⟨none, -⟩ | ⟨-, text', read', -⟩ | ⟨-, -, rfl, -⟩ := is'
    · exact absurd none some
    · rw [read] at read'
      exact nomatch read'
    · rfl

theorem routesOf_unique {uses : Uses} {routes routes' : Option (List RouteValues)}
    (routed : RoutesOf uses routes) (routed' : RoutesOf uses routes') : routes = routes' := by
  have same : usedRoutes id uses = .ok routes := usedRoutes_ok.mpr routed
  rw [usedRoutes_ok.mpr routed', Except.ok.injEq] at same
  exact same.symm

theorem Sources.Of.unique {files : Files} {args : List Str} {env : Env} {s s' : Sources}
    (of : s.Of files args env) (of' : s'.Of files args env) : s = s' := by
  obtain ⟨front, tail, flagged, ends, rfl⟩ := of.args
  obtain ⟨front', tail', flagged', ends', same⟩ := of'.args
  obtain ⟨rest, stops, -⟩ := isEnd_iff.mp ends
  obtain ⟨rest', stops', -⟩ := isEnd_iff.mp ends'
  have uses := (rest_unique flagged stops flagged' stops' same).1
  have routes := routesOf_unique (uses ▸ of.routes) of'.routes
  have toml := isFile_unique (uses ▸ of.toml) of'.toml
  have env := of.env.trans of'.env.symm
  cases s
  cases s'
  simp only at uses routes toml env
  rw [uses, routes, toml, env]

theorem isDashHelp_of_parsed {args : List Str} {cli : Cli}
    (parsed : parseFlags quote args = .ok cli) : ∀ arg ∈ args, isDashHelp arg = false := by
  cases asked : args.any isDashHelp with
  | true =>
      rw [parseFlags, if_pos asked] at parsed
      cases parsed
  | false => simpa using asked

theorem loadSources_ok {files : Files} {cli : Cli} {env : Env} {cfg : Config} :
    loadSources files ip quote cli env defaultConfigPath = .ok cfg ↔
      ∃ toml raw, IsFile files cli.configPath toml ∧ Raw.ofEnv quote env = .ok raw ∧
        (((Values.default.applyRaw (Raw.ofToml toml)).applyRaw raw).applyRaw cli.raw).config
          ip quote = .ok cfg := by
  simp only [loadSources, Results.bind_eq_ok, Values.applyEnv, Results.map_eq_ok, ofFile_ok]
  constructor
  · rintro ⟨values, ⟨toml, is, rfl⟩, values', ⟨raw, read, rfl⟩, loaded⟩
    exact ⟨toml, raw, is, read, loaded⟩
  · rintro ⟨toml, raw, is, read, loaded⟩
    exact ⟨_, ⟨toml, is, rfl⟩, _, ⟨raw, read, rfl⟩, loaded⟩

theorem fromSources_ok {files : Files} {args : List Str} {env : Env} {cfg : Config} :
    fromSources files ip quote args env = .ok cfg ↔
      ∃ cli, parseFlags quote args = .ok cli ∧ cli.help = false ∧ cli.version = false ∧
        loadSources files ip quote cli env defaultConfigPath = .ok cfg := by
  rw [fromSources, fromSourcesWithDefault]
  cases parseFlags quote args with
  | error e => simp
  | ok cli =>
      simp only [Except.ok.injEq, exists_eq_left']
      cases cli.help with
      | true => simp
      | false =>
          cases cli.version with
          | true => simp
          | false =>
              cases loadSources files ip quote cli env defaultConfigPath <;>
                simp [Except.mapError]

/-- The sources of a configuration that was loaded, with their values over each other. -/
theorem exists_sources {files : Files} {args : List Str} {env : Env} {cfg : Config}
    (loaded : fromSources files ip quote args env = .ok cfg) :
    ∃ s : Sources, s.Of files args env ∧ ∃ low middle high : Raw,
      (((Values.default.applyRaw low).applyRaw middle).applyRaw high).config ip quote = .ok cfg ∧
        (∀ flag, low.get flag = s.toml.get flag) ∧
        (∀ flag, middle.get flag = (s.envValue quote flag).map flag.clean) ∧
        ∀ flag, flag.IsOption → high.get flag = (s.cliValue flag).map flag.clean := by
  obtain ⟨cli, parsed, -, -, loaded'⟩ := fromSources_ok.mp loaded
  obtain ⟨toml, raw, is, read, merged⟩ := loadSources_ok.mp loaded'
  obtain ⟨front, uses, tail, flagged, ends, rfl, made⟩ :=
    (parseFlags_ok (isDashHelp_of_parsed parsed)).mp parsed
  obtain ⟨routes, routed, holds⟩ := ofUses_holds flagged made
  refine ⟨⟨uses, routes, env, toml⟩, ⟨⟨front, tail, flagged, ends, rfl⟩, routed, rfl, ?_⟩,
    Raw.ofToml toml, raw, cli.raw, merged, get_ofToml toml, get_ofEnv read, ?_⟩
  · rw [← holds.config]
    exact is
  · exact fun flag => get_cli holds

theorem values_of_sources {files : Files} {args : List Str} {env : Env} {cfg : Config}
    {s : Sources} (of : s.Of files args env)
    (loaded : fromSources files ip quote args env = .ok cfg) :
    (∀ flag : Flag, flag.Normal ip quote (s.value quote flag) (cfg.get flag)) ∧
      Logging.parseLevel (s.level quote) = .ok cfg.logging.level := by
  obtain ⟨s', of', low, middle, high, loaded, lows, middles, highs⟩ := exists_sources loaded
  obtain rfl := of.unique of'
  constructor
  · intro flag
    by_cases option : flag.IsOption
    · rw [Flag.normal_iff, Sources.value, ← Flag.parse_layers, ← lows, ← middles,
        ← highs flag option]
      exact parse_merged loaded flag
    · have none : flag = .config ∨ flag = .help ∨ flag = .version := by
        simpa only [Flag.IsOption, not_and_or, not_not] using option
      obtain rfl | rfl | rfl := none <;> trivial
  · have asked (raw : Raw) : raw.level = levelOf (raw.get .logLevel) (raw.get .debug) := rfl
    have text := @Flag.map_clean .logLevel (by decide)
    have switch := @Flag.map_clean .debug (by decide)
    have level := parseLevel_merged loaded
    rw [asked, asked, asked, highs _ (by decide), highs _ (by decide), middles,
      middles, lows, lows, text, text, switch, switch] at level
    exact level

/-- Each value is the normalised one of the highest source that sets its option, and does not
change with anything but that. -/
theorem precedence {files : Files} {args : List Str} {env : Env} {cfg : Config}
    (loaded : fromSources files ip quote args env = .ok cfg) :
    ∃ s : Sources, s.Of files args env ∧
      (∀ flag : Flag, flag.Normal ip quote (s.value quote flag) (cfg.get flag)) ∧
      Logging.parseLevel (s.level quote) = .ok cfg.logging.level ∧
      ∀ (files' : Files) (args' : List Str) (env' : Env) (cfg' : Config) (s' : Sources),
        fromSources files' ip quote args' env' = .ok cfg' → s'.Of files' args' env' →
        ∀ flag : Flag, Sources.Agree quote flag s s' → cfg'.get flag = cfg.get flag := by
  obtain ⟨s, of, -⟩ := exists_sources loaded
  obtain ⟨values, level⟩ := values_of_sources of loaded
  refine ⟨s, of, values, level, ?_⟩
  intro files' args' env' cfg' s' loaded' of' flag agree
  have value := Flag.normal_iff.mp ((values_of_sources of' loaded').1 flag)
  rw [← Sources.value_of_agree quote agree, Flag.normal_iff.mp (values flag),
    Except.ok.injEq] at value
  exact value.symm

end Layers

/-- A file system without files. -/
def noFiles : Files where
  readToString _ := .error { notFound := true, text := [] }
  fromStr _ := .error []

/-- An environment with a route, which hides the client. -/
def routeEnv : Env := fun name =>
  if name = "PROXEMBY_ROUTE".toList then some "http://emby:8096,http://proxemby".toList
  else if name = "PROXEMBY_HIDE_CLIENT".toList then some "yes".toList
  else none

/-- A flag over the environment. -/
theorem precedence_flag :
    ∃ cfg, fromSources noFiles sampleText id ["--hide-client=0".toList] routeEnv = .ok cfg ∧
      ∃ s : Sources, s.Of noFiles ["--hide-client=0".toList] routeEnv ∧
        ∀ flag : Flag, flag.Normal sampleText id (s.value id flag) (cfg.get flag) := by
  have loaded : ∃ cfg, fromSources noFiles sampleText id ["--hide-client=0".toList] routeEnv =
      .ok cfg := ⟨_, rfl⟩
  obtain ⟨cfg, loaded⟩ := loaded
  obtain ⟨s, of, values, -⟩ := precedence loaded
  exact ⟨cfg, loaded, s, of, values⟩

end Proxemby.Loading
