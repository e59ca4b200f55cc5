import Proxemby.Loading.Precedence

/-!
# Blank variables

What becomes of a configuration when variables with blank values are taken out of the
environment.  A variable of a switch counts with a blank value too: it turns the switch off.
-/

namespace Proxemby.Loading

open Text

/-! ## Taking variables out -/

/-- The environment without some variables. -/
def Env.without (env : Env) (removed : Str → Bool) : Env := fun name =>
  if removed name then none else env name

/-- The variables have blank values; the address of the statistics is not among them. -/
def Env.Blank (env : Env) (removed : Str → Bool) : Prop :=
  ∀ name, removed name = true → "PROXEMBY_".toList <+: name ∧
    name ≠ "PROXEMBY_STATS_ADDR".toList ∧ ∃ value, env name = some value ∧ trim value = []

/-- No variable of a switch is among them, but for the debug flag next to a log level. -/
def Env.Harmless (env : Env) (removed : Str → Bool) : Prop :=
  ∀ (flag : Flag) (name : Str), flag.envName = some name → flag.kind = .bool →
    removed name = true → flag = .debug ∧ env.nonEmpty "PROXEMBY_LOG_LEVEL".toList ≠ none

/-- The environment has malformed routes, or an integer that is malformed or out of range. -/
def Env.Malformed (quote : Str → Str) (env : Env) : Prop :=
  (∃ value e, env.nonEmpty "PROXEMBY_ROUTE".toList = some value ∧
      parseRouteValues quote value = .error e) ∨
    (∃ value e, env.nonEmpty "PROXEMBY_PLAYBACKINFO_MAX_BYTES".toList = some value ∧
      parsePositiveInt value "PROXEMBY_PLAYBACKINFO_MAX_BYTES".toList = .error e) ∨
    ∃ value e, env.nonEmpty "PROXEMBY_RESPONSE_HEADER_TIMEOUT".toList = some value ∧
      parseNonNegativeInt value "PROXEMBY_RESPONSE_HEADER_TIMEOUT".toList = .error e

section Without

variable {env : Env} {removed : Str → Bool} {ip : IpText} {quote : Str → Str}

theorem without_of_kept {name : Str} (kept : removed name = false) :
    env.without removed name = env name := by
  rw [Env.without, kept, if_neg (by simp)]

theorem nonEmpty_without (blank : env.Blank removed) (name : Str) :
    (env.without removed).nonEmpty name = env.nonEmpty name := by
  rw [nonEmpty_eq, nonEmpty_eq, Env.without]
  cases taken : removed name with
  | false => rfl
  | true =>
      obtain ⟨-, -, value, given, empty⟩ := blank name taken
      rw [given, if_pos rfl, Option.bind_none, Option.bind_some, nonBlank, if_pos empty]

theorem exists_ofEnv (formed : ¬env.Malformed quote) : ∃ raw, Raw.ofEnv quote env = .ok raw := by
  have parsed {α : Type} {given : Option Str} {step : Str → Except Str α}
      (formed : ¬∃ value e, given = some value ∧ step value = .error e) :
      ∃ result, given.mapM step = .ok result := by
    refine ⟨_, Results.mapM_option_eq_ok.mpr ⟨fun value some => ?_, rfl⟩⟩
    cases taken : step value with
    | error e => exact absurd ⟨value, e, some, taken⟩ formed
    | ok image => exact ⟨image, rfl⟩
  obtain ⟨noRoute, rest⟩ := not_or.mp formed
  obtain ⟨noBytes, noTimeout⟩ := not_or.mp rest
  obtain ⟨routes, routesRead⟩ := parsed noRoute
  obtain ⟨maxBytes, maxBytesRead⟩ := parsed noBytes
  obtain ⟨timeout, timeoutRead⟩ := parsed noTimeout
  exact ⟨_, Results.bind_eq_ok.mpr ⟨routes, routesRead, Results.bind_eq_ok.mpr
    ⟨maxBytes, maxBytesRead, Results.bind_eq_ok.mpr ⟨timeout, timeoutRead, rfl⟩⟩⟩⟩

theorem not_malformed {raw : Raw} (read : Raw.ofEnv quote env = .ok raw) :
    ¬env.Malformed quote := by
  have parsed {α : Type} {given : Option Str} {step : Str → Except Str α} {result : Option α}
      (read : given.mapM step = .ok result) :
      ¬∃ value e, given = some value ∧ step value = .error e := by
    rintro ⟨value, e, some, taken⟩
    obtain ⟨image, same⟩ := (Results.mapM_option_eq_ok.mp read).1 value some
    rw [taken] at same
    exact nomatch same
  obtain ⟨routes, routesRead, read⟩ := Results.bind_eq_ok.mp read
  obtain ⟨maxBytes, maxBytesRead, read⟩ := Results.bind_eq_ok.mp read
  obtain ⟨timeout, timeoutRead, -⟩ := Results.bind_eq_ok.mp read
  exact not_or.mpr ⟨parsed routesRead, not_or.mpr ⟨parsed maxBytesRead, parsed timeoutRead⟩⟩

/-- The variables that are parsed are no switches. -/
theorem ofEnv_without (blank : env.Blank removed) :
    Raw.ofEnv quote (env.without removed) = (fun raw => Raw.withParsed (env.without removed)
      raw.routes raw.playbackinfoMaxBytes raw.responseHeaderTimeout) <$> Raw.ofEnv quote env := by
  simp only [Raw.ofEnv, nonEmpty_without blank, map_bind, map_pure]
  rfl

theorem boolean_without (harmless : env.Harmless removed) {flag : Flag} {name : Str}
    (named : flag.envName = some name) (switch : flag.kind = .bool) (other : flag ≠ .debug) :
    (env.without removed).boolean name = env.boolean name := by
  have kept : removed name = false := by
    rw [← Bool.not_eq_true]
    exact fun taken => other (harmless flag name named switch taken).1
  rw [Env.boolean, Env.boolean, without_of_kept kept]

theorem level_without (blank : env.Blank removed) (harmless : env.Harmless removed)
    (routes : Option (List RouteValues)) (maxBytes timeout : Option Int) :
    (Raw.withParsed (env.without removed) routes maxBytes timeout).level =
      (Raw.withParsed env routes maxBytes timeout).level := by
  simp only [Raw.level, Raw.withParsed, nonEmpty_without blank]
  cases given : env.nonEmpty "PROXEMBY_LOG_LEVEL".toList with
  | some level => rfl
  | none =>
      have kept : removed "PROXEMBY_DEBUG".toList = false := by
        rw [← Bool.not_eq_true]
        exact fun taken => (harmless .debug _ rfl rfl taken).2 given
      rw [Env.boolean, Env.boolean, without_of_kept kept]

theorem applyEnv_without (blank : env.Blank removed)
    (harmless : env.Malformed quote ∨ env.Harmless removed) (values : Values) :
    values.applyEnv quote (env.without removed) = values.applyEnv quote env := by
  rw [Values.applyEnv, Values.applyEnv, ofEnv_without blank]
  cases read : Raw.ofEnv quote env with
  | error e => rfl
  | ok raw =>
      have harmless := harmless.resolve_left (not_malformed read)
      obtain ⟨routes, maxBytes, timeout, rfl⟩ :
          ∃ routes maxBytes timeout, raw = Raw.withParsed env routes maxBytes timeout := by
        obtain ⟨routes, -, read⟩ := Results.bind_eq_ok.mp read
        obtain ⟨maxBytes, -, read⟩ := Results.bind_eq_ok.mp read
        obtain ⟨timeout, -, same⟩ := Results.bind_eq_ok.mp read
        exact ⟨routes, maxBytes, timeout, (Except.ok.inj same).symm⟩
      have switch (flag : Flag) {name : Str} (named : flag.envName = some name)
          (switch : flag.kind = .bool) (other : flag ≠ .debug) :=
        boolean_without harmless named switch other
      have statsAddr : env.without removed "PROXEMBY_STATS_ADDR".toList =
          env "PROXEMBY_STATS_ADDR".toList := by
        refine without_of_kept ?_
        rw [← Bool.not_eq_true]
        exact fun taken => (blank _ taken).2.1 rfl
      refine congrArg Except.ok ?_
      simp only [Values.applyRaw, level_without blank harmless]
      simp only [Raw.withParsed, nonEmpty_without blank, statsAddr,
        switch .tlsEnable rfl rfl (by decide),
        switch .trustProxyHeaders rfl rfl (by decide),
        switch .hideClient rfl rfl (by decide),
        switch .statsEnable rfl rfl (by decide),
        switch .logTime rfl rfl (by decide)]

/-- Without switches among them the variables have no part in the result. -/
theorem fromSources_without (blank : env.Blank removed)
    (harmless : env.Malformed quote ∨ env.Harmless removed) (files : Files) (args : List Str) :
    fromSources files ip quote args (env.without removed) =
      fromSources files ip quote args env := by
  simp only [fromSources, fromSourcesWithDefault, loadSources, applyEnv_without blank harmless]

/-! ## A load on which a switch tells -/

/-- A file in which all switches are on. -/
def onToml : TomlConfig where
  tls := { enable := some true }
  proxy := { hideClient := some true }
  clients := { trustProxyHeaders := some true }
  stats := { enable := some true }
  logging := { level := some "warn".toList, time := some true }

def onFiles : Files where
  readToString _ := .ok []
  fromStr _ := .ok onToml

/-- Arguments that set all that may be malformed, but for the log level. -/
def tellingArgs : List Str :=
  ["--route=http://a,http://b".toList, "--playbackinfo-max-bytes=1".toList,
    "--response-header-timeout=0".toList, "--allowed-clients=".toList, "--log-format=text".toList]

/-- What such arguments set, with a log level perhaps. -/
def tellingRaw (level : Option Str) : Raw where
  routes := some [⟨"http://a".toList, "http://b".toList, []⟩]
  playbackinfoMaxBytes := some 1
  responseHeaderTimeout := some 0
  allowedClients := some []
  logFormat := some "text".toList
  logLevel := level

/-- The flags of some arguments are those values and nothing else. -/
def Tells (quote : Str → Str) (args : List Str) (level : Option Str) : Prop :=
  ∃ cli, parseFlags quote args = .ok cli ∧ cli.raw = tellingRaw level ∧ cli.configPath = none ∧
    cli.help = false ∧ cli.version = false

theorem tells_nothing : Tells quote tellingArgs none := ⟨_, rfl, rfl, rfl, rfl, rfl⟩

theorem tells_level :
    Tells quote (tellingArgs ++ ["--log-level=info".toList]) (some "info".toList) :=
  ⟨_, rfl, rfl, rfl, rfl, rfl⟩

/-- What was read of the environment between the file and such arguments. -/
def between (raw : Raw) (level : Option Str) : Values :=
  ((Values.default.applyRaw (Raw.ofToml onToml)).applyRaw raw).applyRaw (tellingRaw level)

/-- Such arguments make the configuration well-formed, if the log level is. -/
theorem exists_config {raw : Raw} {level : Option Str}
    (leveled : ∃ asked, Logging.parseLevel (((tellingRaw level).level.or
      (raw.level.or (Raw.ofToml onToml).level)).getD Logging.defaultLevel) = .ok asked) :
    ∃ cfg, (between raw level).config ip quote = .ok cfg := by
  obtain ⟨asked, parsed⟩ := leveled
  have routes : ∃ routes,
      parseRoutes quote [⟨"http://a".toList, "http://b".toList, []⟩] = .ok routes ∧
        routes.2 ≠ [] := ⟨_, rfl, by simp⟩
  obtain ⟨routes, routesParsed, some⟩ := routes
  rw [← getD_or] at parsed
  exact ⟨_, config_eq_ok.mpr ⟨show ¬(1 : Int) ≤ 0 by decide, show ¬(0 : Int) < 0 by decide, [],
    rfl, routes, routesParsed, fun none => some none.2, ⟨asked, .text, _⟩,
    parseConfig_ok.mpr ⟨parsed, rfl, rfl⟩, rfl⟩⟩

theorem fromSources_tells {args : List Str} {level : Option Str} (tells : Tells quote args level)
    {raw : Raw} (read : Raw.ofEnv quote env = .ok raw) {cfg : Config}
    (loaded : (between raw level).config ip quote = .ok cfg) :
    fromSources onFiles ip quote args env = .ok cfg := by
  obtain ⟨cli, parsed, sets, path, help, version⟩ := tells
  refine fromSources_ok.mpr ⟨cli, parsed, help, version, loadSources_ok.mpr ⟨onToml, raw, ?_,
    read, sets ▸ loaded⟩⟩
  rw [path]
  exact .inr (.inl ⟨by decide, [], rfl, rfl⟩)

/-- Two environments with equal results are read to one configuration. -/
theorem exists_common {env' : Env} (same : ∀ (files : Files) (args : List Str),
      fromSources files ip quote args env' = fromSources files ip quote args env)
    {args : List Str} {level : Option Str} (tells : Tells quote args level) {raw raw' : Raw}
    (read : Raw.ofEnv quote env = .ok raw) (read' : Raw.ofEnv quote env' = .ok raw')
    (leveled : ∀ raw'' ∈ [raw, raw'], ∃ asked, Logging.parseLevel (((tellingRaw level).level.or
      (raw''.level.or (Raw.ofToml onToml).level)).getD Logging.defaultLevel) = .ok asked) :
    ∃ cfg, (between raw level).config ip quote = .ok cfg ∧
      (between raw' level).config ip quote = .ok cfg := by
  obtain ⟨cfg, loaded⟩ : ∃ cfg, (between raw level).config ip quote = .ok cfg :=
    exists_config (leveled raw (by simp))
  obtain ⟨cfg', loaded'⟩ : ∃ cfg, (between raw' level).config ip quote = .ok cfg :=
    exists_config (leveled raw' (by simp))
  have equal := same onFiles args
  rw [fromSources_tells tells read' loaded', fromSources_tells tells read loaded,
    Except.ok.injEq] at equal
  exact ⟨cfg, loaded, equal ▸ loaded'⟩

/-- A blank variable of a switch turns it off. -/
theorem parseBool_of_blank {value : Str} (blank : trim value = []) : parseBool value = false := by
  rw [parseBool, blank]
  rfl

/-- A removed switch tells on the loads, if it is not the debug flag. -/
theorem differ_of_switch (blank : env.Blank removed) (same : ∀ (files : Files) (args : List Str),
      fromSources files ip quote args (env.without removed) =
        fromSources files ip quote args env)
    {raw raw' : Raw} (read : Raw.ofEnv quote env = .ok raw)
    (read' : Raw.ofEnv quote (env.without removed) = .ok raw') {flag : Flag} {name : Str}
    (named : flag.envName = some name) (switch : flag.kind = .bool) (taken : removed name = true) :
    flag = .debug := by
  obtain ⟨-, -, value, given, empty⟩ := blank name taken
  obtain ⟨cfg, loaded, loaded'⟩ := exists_common same tells_level read read'
    (fun raw _ => ⟨.info, rfl⟩)
  have on := parse_merged loaded flag
  have off := parse_merged loaded' flag
  have single : flag ≠ .allowedHosts ∧ flag ≠ .allowedClients ∧ flag ≠ .allowedUsers := by
    refine ⟨?_, ?_, ?_⟩ <;> (rintro rfl; exact nomatch switch)
  rw [get_ofEnv read, Flag.map_clean single, named, Option.bind_some, given,
    Option.bind_some] at on
  rw [get_ofEnv read', Flag.map_clean single, named, Option.bind_some, Env.without, if_pos taken,
    Option.bind_none] at off
  have contra (equal : (Except.ok (parseBool value) : Except Str Bool) = .ok true) : False := by
    rw [parseBool_of_blank empty] at equal
    simp at equal
  by_contra other
  cases flag
  case tlsEnable | trustProxyHeaders | hideClient | statsEnable | logTime =>
    exact contra (on.trans off.symm)
  case debug => exact other rfl
  case help | version => exact nomatch named
  all_goals exact nomatch switch

/-- A removed debug flag tells on the loads, if the environment has no log level. -/
theorem level_of_debug (blank : env.Blank removed) (same : ∀ (files : Files) (args : List Str),
      fromSources files ip quote args (env.without removed) =
        fromSources files ip quote args env)
    {raw raw' : Raw} (read : Raw.ofEnv quote env = .ok raw)
    (read' : Raw.ofEnv quote (env.without removed) = .ok raw')
    (taken : removed "PROXEMBY_DEBUG".toList = true) :
    env.nonEmpty "PROXEMBY_LOG_LEVEL".toList ≠ none := by
  intro none
  obtain ⟨-, -, value, given, empty⟩ := blank _ taken
  have unset : raw.get .logLevel = Option.none := by
    rw [get_ofEnv read, Flag.map_clean (by decide)]
    exact nonEmpty_eq.symm.trans none
  have unset' : raw'.get .logLevel = Option.none := by
    rw [get_ofEnv read', Flag.map_clean (by decide)]
    exact nonEmpty_eq.symm.trans ((nonEmpty_without blank _).trans none)
  have off : raw.get .debug = some false := by
    rw [get_ofEnv read, Flag.map_clean (by decide), ← parseBool_of_blank empty]
    exact congrArg (Option.bind · _) given
  have absent : raw'.get .debug = Option.none := by
    rw [get_ofEnv read', Flag.map_clean (by decide)]
    exact congrArg (Option.bind · _) (if_pos taken)
  have level : raw.level = some Logging.defaultLevel :=
    congrArg₂ levelOf unset off
  have level' : raw'.level = Option.none := congrArg₂ levelOf unset' absent
  obtain ⟨cfg, loaded, loaded'⟩ := exists_common same tells_nothing read read' (by
    intro raw'' member
    obtain rfl | rfl := List.mem_pair.mp member
    · exact ⟨.info, by rw [level]; rfl⟩
    · exact ⟨.warn, by rw [level']; rfl⟩)
  have info := parseLevel_merged loaded
  have warn := parseLevel_merged loaded'
  rw [level] at info
  rw [level'] at warn
  have equal : (Except.ok .info : Except Str Logging.Level) = .ok .warn := info.trans warn.symm
  simp at equal

/-- Blank variables count as unset, but for those of switches: only the debug flag next to a log
level does, and where the environment is malformed nothing is loaded. -/
theorem blank_unset_iff (blank : env.Blank removed) :
    (∀ (files : Files) (args : List Str),
      fromSources files ip quote args (env.without removed) =
        fromSources files ip quote args env) ↔
      env.Malformed quote ∨ env.Harmless removed := by
  constructor
  · intro same
    by_cases malformed : env.Malformed quote
    · exact .inl malformed
    · refine .inr fun flag name named switch taken => ?_
      obtain ⟨raw, read⟩ := exists_ofEnv malformed
      have read' : Raw.ofEnv quote (env.without removed) = _ := ofEnv_without blank
      rw [read] at read'
      obtain rfl := differ_of_switch blank same read read' named switch taken
      obtain rfl := Option.some.inj named
      exact ⟨rfl, level_of_debug blank same read read' taken⟩
  · exact fun harmless => fromSources_without blank harmless

end Without

/-- Every flag has its names in the table. -/
theorem exists_names (flag : Flag) : ∃ names, (names, flag, flag.kind) ∈ flags := by
  have listed : ∃ entry ∈ flags, entry.2 = (flag, flag.kind) := by cases flag <;> decide
  obtain ⟨⟨names, -⟩, listed, rfl⟩ := listed
  exact ⟨names, listed⟩

/-- A blank address is as none. -/
theorem blank_unset_iff_addr :
    let removed (name : Str) : Bool := name = "PROXEMBY_HTTP_ADDR".toList
    let env : Env := fun name =>
      if name = "PROXEMBY_HTTP_ADDR".toList then some " ".toList else routeEnv name
    fromSources noFiles sampleText id [] (env.without removed) =
      fromSources noFiles sampleText id [] env := by
  intro removed env
  have blank : env.Blank removed := by
    intro name taken
    obtain rfl : name = "PROXEMBY_HTTP_ADDR".toList := of_decide_eq_true taken
    exact ⟨by decide, by decide, " ".toList, by decide, by decide⟩
  refine (blank_unset_iff blank).mpr (.inr ?_) noFiles []
  intro flag name named switch taken
  obtain rfl : name = "PROXEMBY_HTTP_ADDR".toList := of_decide_eq_true taken
  have other : ∀ entry ∈ flags, entry.2.2 = .bool →
      entry.2.1.envName ≠ some "PROXEMBY_HTTP_ADDR".toList := by decide
  obtain ⟨names, listed⟩ := exists_names flag
  exact absurd named (other _ listed switch)

/-- A blank variable turns a switch of the file off. -/
theorem blank_hides_switch :
    let removed (name : Str) : Bool := name = "PROXEMBY_HIDE_CLIENT".toList
    let env : Env := fun name =>
      if name = "PROXEMBY_HIDE_CLIENT".toList then some [] else routeEnv name
    env.Blank removed ∧
      ∃ cfg cfg', fromSources onFiles sampleText id [] env = .ok cfg ∧
        fromSources onFiles sampleText id [] (env.without removed) = .ok cfg' ∧
        cfg.hideClient = false ∧ cfg'.hideClient = true := by
  intro removed env
  refine ⟨?_, _, _, rfl, rfl, rfl, rfl⟩
  intro name taken
  obtain rfl : name = "PROXEMBY_HIDE_CLIENT".toList := of_decide_eq_true taken
  exact ⟨by decide, by decide, [], by decide, by decide⟩

end Proxemby.Loading
