import Proxemby.Loading.Values

/-!
# Command-line flags

`parse_flags` of `src/config.rs`: the flags with their names and kinds, the loop over the
arguments, and the values that the flags set.  An argument list is read as a sequence of
flags, with the terminator `--` behind it or not.
-/

namespace Proxemby.Loading

open Text

/-! ## Flags -/

inductive FlagKind where
  | str
  | bool
  | int
  deriving DecidableEq

inductive Flag where
  | config
  | route
  | httpAddr
  | tlsEnable
  | tlsAddr
  | acmeEmail
  | acmeCacheDir
  | allowedHosts
  | playbackinfoMaxBytes
  | allowedClients
  | trustProxyHeaders
  | hideClient
  | allowedUsers
  | authStateFile
  | debug
  | logLevel
  | logFormat
  | logTime
  | responseHeaderTimeout
  | statsEnable
  | statsAddr
  | statsFile
  | help
  | version
  deriving DecidableEq

/-- The names of each flag, and its kind. -/
def flags : List (List Str × Flag × FlagKind) :=
  [(["c".toList, "config".toList], .config, .str),
    (["route".toList], .route, .str),
    (["h".toList, "http-addr".toList], .httpAddr, .str),
    (["tls-enable".toList], .tlsEnable, .bool),
    (["tls-addr".toList], .tlsAddr, .str),
    (["acme-email".toList], .acmeEmail, .str),
    (["acme-cache-dir".toList], .acmeCacheDir, .str),
    (["a".toList, "allowed-hosts".toList], .allowedHosts, .str),
    (["playbackinfo-max-bytes".toList], .playbackinfoMaxBytes, .int),
    (["allowed-clients".toList], .allowedClients, .str),
    (["trust-proxy-headers".toList], .trustProxyHeaders, .bool),
    (["hide-client".toList], .hideClient, .bool),
    (["allowed-users".toList], .allowedUsers, .str),
    (["auth-state-file".toList], .authStateFile, .str),
    (["d".toList, "debug".toList], .debug, .bool),
    (["log-level".toList], .logLevel, .str),
    (["log-format".toList], .logFormat, .str),
    (["log-time".toList], .logTime, .bool),
    (["response-header-timeout".toList], .responseHeaderTimeout, .int),
    (["stats-enable".toList], .statsEnable, .bool),
    (["stats-addr".toList], .statsAddr, .str),
    (["stats-file".toList], .statsFile, .str),
    (["help".toList], .help, .bool),
    (["version".toList], .version, .bool)]

/-- The flag of a name. -/
def findFlag (name : Str) : Option (Flag × FlagKind) :=
  (flags.find? fun entry => entry.1.contains name).map fun entry => entry.2

def parseGoBool (raw : Str) : Option Bool :=
  if raw ∈ ["1".toList, "t".toList, "T".toList, "TRUE".toList, "true".toList, "True".toList] then
    some true
  else if raw ∈ ["0".toList, "f".toList, "F".toList, "FALSE".toList, "false".toList,
      "False".toList] then
    some false
  else none

/-! ## Parsing -/

structure Cli where
  raw : Raw
  configPath : Option Str
  help : Bool
  version : Bool

/-- What an argument is at its place: no flag, the terminator, or a flag with the value
behind its equals sign. -/
inductive ArgShape where
  | other
  | terminator
  | malformed
  | unknown (name : Str)
  | flag (name : Str) (flag : Flag) (kind : FlagKind) (inlineValue : Option Str)

/-- An argument of one octet is one character, if it begins with a dash. -/
def argShape (arg : Str) : ArgShape :=
  if arg.length < 2 then .other
  else
    match arg with
    | '-' :: rest =>
        let name := (stripPrefix ['-'] rest).getD rest
        if name = [] then .terminator
        else if name.head? = some '-' ∨ name.head? = some '=' then .malformed
        else
          let (name, inlineValue) :=
            match splitOnce '=' name with
            | some (name, value) => (name, some value)
            | none => (name, none)
          match findFlag name with
          | none => .unknown name
          | some (flag, kind) => .flag name flag kind inlineValue
    | _ => .other

/-- The flags of an argument list, with their values, in order. -/
abbrev Uses := List (Flag × Str)

section Parse

variable (quote : Str → Str)

/-- The check of a value that was found for a flag. -/
def checkInt (name : Str) (kind : FlagKind) (value : Str) : Except Str Unit :=
  if kind = .int ∧ readI64 (trim value) = none then
    .error ("invalid value ".toList ++ quote value ++ " for flag -".toList ++ name ++
      ": parse error".toList)
  else .ok ()

/-- The value that stands in the argument of a flag itself. -/
def ownValue (name : Str) (kind : FlagKind) (inlineValue : Option Str) :
    Except Str (Option Str) :=
  match kind, inlineValue with
  | .bool, some value =>
      if parseGoBool value = none then
        .error ("invalid boolean value ".toList ++ quote value ++ " for -".toList ++ name ++
          ": parse error".toList)
      else .ok (some value)
  | .bool, none => .ok (some "true".toList)
  | _, inlineValue => .ok inlineValue

/-- The loop of `parse_flags`: the flags, and the arguments at which it stops. -/
def scanArgs (uses : Uses) : List Str → Except Str (Uses × List Str)
  | [] => .ok (uses, [])
  | arg :: args =>
      match argShape arg with
      | .other => .ok (uses, arg :: args)
      | .terminator => .ok (uses, args)
      | .malformed => .error ("bad flag syntax: ".toList ++ arg)
      | .unknown name => .error ("flag provided but not defined: -".toList ++ name)
      | .flag name flag kind inlineValue =>
          match ownValue quote name kind inlineValue with
          | .error e => .error e
          | .ok (some value) =>
              match checkInt quote name kind value with
              | .error e => .error e
              | .ok () => scanArgs (uses ++ [(flag, value)]) args
          | .ok none =>
              match args with
              | [] => .error ("flag needs an argument: -".toList ++ name)
              | value :: args =>
                  match checkInt quote name kind value with
                  | .error e => .error e
                  | .ok () => scanArgs (uses ++ [(flag, value)]) args

/-- The value that was inserted last for a flag. -/
def lastValue (uses : Uses) (flag : Flag) : Option Str :=
  (uses.findRev? fun use => use.1 = flag).map fun use => use.2

/-- The values of the `--route` flags. -/
def routeValues (uses : Uses) : List Str :=
  (uses.filter fun use => use.1 = .route).map fun use => use.2

def asBool (value : Str) : Bool := (parseGoBool value).getD false

/-- The routes of all `--route` flags together. -/
def usedRoutes (uses : Uses) : Except Str (Option (List RouteValues)) :=
  match lastValue uses .route with
  | some _ => (parseRouteValues quote ([';'].intercalate (routeValues uses))).map some
  | none => .ok none

/-- The last loop of `parse_flags`, over the map of the values. -/
def Cli.ofUses (uses : Uses) : Except Str Cli :=
  let value := lastValue uses
  (usedRoutes quote uses).map fun routes => {
    raw := {
      routes
      httpAddr := value .httpAddr
      tlsEnable := (value .tlsEnable).map asBool
      tlsAddr := value .tlsAddr
      acmeEmail := value .acmeEmail
      acmeCacheDir := value .acmeCacheDir
      allowedHosts := (value .allowedHosts).map splitCsv
      playbackinfoMaxBytes := (value .playbackinfoMaxBytes).bind fun value => readI64 (trim value)
      responseHeaderTimeout :=
        (value .responseHeaderTimeout).bind fun value => readI64 (trim value)
      allowedClients := (value .allowedClients).map splitCsv
      trustProxyHeaders := (value .trustProxyHeaders).map asBool
      hideClient := (value .hideClient).map asBool
      allowedUsers := (value .allowedUsers).map splitCsv
      authStateFile := value .authStateFile
      statsEnable := (value .statsEnable).map asBool
      statsAddr := value .statsAddr
      statsFile := value .statsFile
      debug := (value .debug).map asBool
      logLevel := value .logLevel
      logFormat := value .logFormat
      logTime := (value .logTime).map asBool }
    configPath := value .config
    help := ((value .help).map asBool).getD false
    version := ((value .version).map asBool).getD false }

/-- An argument that asks for help with one dash. -/
def isDashHelp (arg : Str) : Bool := arg = "-help".toList || "-help=".toList.isPrefixOf arg

/-- The argument that is left over.  The terminator itself is behind the position at which the
loop stops. -/
def extraArg : List Str → Option Str
  | [] => none
  | arg :: rest => if arg = "--".toList then rest.head? else some arg

def parseFlags (args : List Str) : Except Str Cli :=
  if args.any isDashHelp then .error "use --help for help; -h is --http-addr".toList
  else
    match scanArgs quote [] args with
    | .error e => .error e
    | .ok (uses, rest) =>
        match extraArg rest with
        | some extra => .error ("unexpected argument ".toList ++ quote extra)
        | none => Cli.ofUses quote uses

end Parse

example : (scanArgs id [] ["--acme-email".toList, "--".toList, "-d".toList]).toOption =
    some ([(.acmeEmail, "--".toList), (.debug, "true".toList)], []) := by decide

end Proxemby.Loading
