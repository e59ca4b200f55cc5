import Proxemby.Lib.Results
import Proxemby.Loading.Flags

/-!
# Which argument lists are flags

The sequences of flags that a command line may be, and what `parse_flags` makes of them.
The loop takes the terminator with it, so that the check behind it takes another one for
the terminator.
-/

namespace Proxemby.Loading

open Text

/-! ## Options -/

/-- What an option is set to. -/
def Flag.Value : Flag → Type
  | .route => List RouteValues
  | .tlsEnable | .trustProxyHeaders | .hideClient | .debug | .logTime | .statsEnable | .help
  | .version => Bool
  | .playbackinfoMaxBytes | .responseHeaderTimeout => Int
  | .allowedHosts | .allowedClients | .allowedUsers => List Str
  | .config | .httpAddr | .tlsAddr | .acmeEmail | .acmeCacheDir | .authStateFile | .logLevel
  | .logFormat | .statsAddr | .statsFile => Str

/-- What a source sets an option to. -/
def Raw.get (raw : Raw) : (flag : Flag) → Option flag.Value
  | .config => none
  | .route => raw.routes
  | .httpAddr => raw.httpAddr
  | .tlsEnable => raw.tlsEnable
  | .tlsAddr => raw.tlsAddr
  | .acmeEmail => raw.acmeEmail
  | .acmeCacheDir => raw.acmeCacheDir
  | .allowedHosts => raw.allowedHosts
  | .playbackinfoMaxBytes => raw.playbackinfoMaxBytes
  | .allowedClients => raw.allowedClients
  | .trustProxyHeaders => raw.trustProxyHeaders
  | .hideClient => raw.hideClient
  | .allowedUsers => raw.allowedUsers
  | .authStateFile => raw.authStateFile
  | .debug => raw.debug
  | .logLevel => raw.logLevel
  | .logFormat => raw.logFormat
  | .logTime => raw.logTime
  | .responseHeaderTimeout => raw.responseHeaderTimeout
  | .statsEnable => raw.statsEnable
  | .statsAddr => raw.statsAddr
  | .statsFile => raw.statsFile
  | .help => none
  | .version => none

/-- What the value of a flag sets its option to; for a route the values of all flags count. -/
def Flag.read : (flag : Flag) → Str → Option flag.Value
  | .route, _ => none
  | .tlsEnable, value | .trustProxyHeaders, value | .hideClient, value | .debug, value
  | .logTime, value | .statsEnable, value | .help, value | .version, value => parseGoBool value
  | .playbackinfoMaxBytes, value | .responseHeaderTimeout, value => readI64 (trim value)
  | .allowedHosts, value | .allowedClients, value | .allowedUsers, value => some (splitCsv value)
  | .config, value | .httpAddr, value | .tlsAddr, value | .acmeEmail, value
  | .acmeCacheDir, value | .authStateFile, value | .logLevel, value | .logFormat, value
  | .statsAddr, value | .statsFile, value => some value

/-- A flag that is an option of the configuration. -/
def Flag.IsOption (flag : Flag) : Prop := flag ≠ .config ∧ flag ≠ .help ∧ flag ≠ .version

instance : DecidablePred Flag.IsOption := fun flag =>
  inferInstanceAs (Decidable (flag ≠ .config ∧ flag ≠ .help ∧ flag ≠ .version))

/-! ## Sequences of flags -/

/-- A name of a flag. -/
def Known (name : Str) (flag : Flag) (kind : FlagKind) : Prop :=
  ∃ names, (names, flag, kind) ∈ flags ∧ name ∈ names

/-- A value that a flag of a kind may have. -/
def FlagKind.Valid : FlagKind → Str → Prop
  | .str, _ => True
  | .bool, value => (parseGoBool value).isSome = true
  | .int, value => (readI64 (trim value)).isSome = true

def IsDash (dashes : Str) : Prop := dashes = "-".toList ∨ dashes = "--".toList

/-- The arguments of a flag with its value. -/
inductive IsFlag : List Str → Flag → Str → Prop where
  | switch {dashes name : Str} {flag : Flag} : IsDash dashes → Known name flag .bool →
      IsFlag [dashes ++ name] flag "true".toList
  | inlined {dashes name value : Str} {flag : Flag} {kind : FlagKind} : IsDash dashes →
      Known name flag kind → kind.Valid value → IsFlag [dashes ++ (name ++ '=' :: value)] flag value
  | next {dashes name value : Str} {flag : Flag} {kind : FlagKind} : IsDash dashes →
      Known name flag kind → kind ≠ .bool → kind.Valid value →
      IsFlag [dashes ++ name, value] flag value

/-- The arguments of some flags. -/
inductive FlagArgs : List Str → Uses → Prop where
  | nil : FlagArgs [] []
  | cons {args rest : List Str} {flag : Flag} {value : Str} {uses : Uses} :
      IsFlag args flag value → FlagArgs rest uses →
      FlagArgs (args ++ rest) ((flag, value) :: uses)

/-- An entry of a list of routes. -/
def IsRouteEntry (entry : Str) (route : RouteValues) : Prop :=
  route.upstreamUrl ≠ [] ∧ route.publicUrl ≠ [] ∧
    ((entry.splitOn ',').map trim = [route.upstreamUrl, route.publicUrl] ∧
        route.acmeDomain = [] ∨
      (entry.splitOn ',').map trim = [route.upstreamUrl, route.publicUrl, route.acmeDomain] ∧
        route.acmeDomain ≠ [])

/-- The routes of one text. -/
def AreRoutes (value : Str) (routes : List RouteValues) : Prop :=
  List.Forall₂ IsRouteEntry (routeEntries value) routes

/-- The routes of the flags together; there must be some where a route flag is. -/
def RoutesOf (uses : Uses) (routes : Option (List RouteValues)) : Prop :=
  routeValues uses = [] ∧ routes = none ∨
    ∃ lists, routeValues uses ≠ [] ∧ List.Forall₂ AreRoutes (routeValues uses) lists ∧
      lists.flatten ≠ [] ∧ routes = some lists.flatten

/-- Each option has the value of its last flag, and the routes are those of all. -/
structure Cli.Holds (cli : Cli) (uses : Uses) (routes : Option (List RouteValues)) : Prop where
  options : ∀ flag : Flag, flag.IsOption → flag ≠ .route →
    cli.raw.get flag = (lastValue uses flag).bind flag.read
  routes : cli.raw.routes = routes
  config : cli.configPath = lastValue uses .config
  help : cli.help = true ↔ (lastValue uses .help).bind parseGoBool = some true
  version : cli.version = true ↔ (lastValue uses .version).bind parseGoBool = some true

/-- The argument lists that are taken are the sequences of flags, perhaps with the terminator
behind them, and the flags set what they say. -/
structure ParsesFlags (quote : Str → Str) (args : List Str) : Prop where
  accepts : (∃ cli, parseFlags quote args = .ok cli) ↔
    ∃ front uses routes, FlagArgs front uses ∧ RoutesOf uses routes ∧
      (args = front ∨ args = front ++ ["--".toList])
  sets : ∀ cli, parseFlags quote args = .ok cli →
    ∃ front uses routes, FlagArgs front uses ∧ RoutesOf uses routes ∧
      (args = front ∨ args = front ++ ["--".toList]) ∧ cli.Holds uses routes

/-! ## Arguments -/

theorem name_ok {entry : List Str × Flag × FlagKind} (listed : entry ∈ flags) {name : Str}
    (named : name ∈ entry.1) :
    findFlag name = some entry.2 ∧ name ≠ [] ∧ name.head? ≠ some '-' ∧ '=' ∉ name := by
  have all : ∀ entry ∈ flags, ∀ name ∈ entry.1,
      findFlag name = some entry.2 ∧ name ≠ [] ∧ name.head? ≠ some '-' ∧ '=' ∉ name := by decide
  exact all entry listed name named

theorem findFlag_iff {name : Str} {flag : Flag} {kind : FlagKind} :
    findFlag name = some (flag, kind) ↔ Known name flag kind := by
  constructor
  · intro found
    rw [findFlag, Option.map_eq_some_iff] at found
    obtain ⟨⟨names, other⟩, found, rfl⟩ := found
    have named := List.find?_some found
    exact ⟨names, List.mem_of_find?_eq_some found, by simpa using named⟩
  · rintro ⟨names, listed, named⟩
    exact (name_ok listed named).1

/-- The shape of an argument with the text that is behind its dashes. -/
def bodyShape (body : Str) : ArgShape :=
  match splitOnce '=' body with
  | some (name, value) =>
      match findFlag name with
      | none => .unknown name
      | some (flag, kind) => .flag name flag kind (some value)
  | none =>
      match findFlag body with
      | none => .unknown body
      | some (flag, kind) => .flag body flag kind none

theorem argShape_cons {rest : Str} (nonempty : rest ≠ []) :
    argShape ('-' :: rest) =
      let body := (stripPrefix ['-'] rest).getD rest
      if body = [] then .terminator
      else if body.head? = some '-' ∨ body.head? = some '=' then .malformed
      else bodyShape body := by
  obtain ⟨c, rest, rfl⟩ := List.exists_cons_of_ne_nil nonempty
  rw [argShape, if_neg (by simp)]
  simp only [bodyShape]
  split
  · rfl
  · split
    · rfl
    · cases splitOnce '=' ((stripPrefix ['-'] (c :: rest)).getD (c :: rest)) <;> rfl

theorem argShape_dash {dashes body : Str} (dash : IsDash dashes) (nonempty : body ≠ [])
    (first : body.head? ≠ some '-') (other : body.head? ≠ some '=') :
    argShape (dashes ++ body) = bodyShape body := by
  obtain ⟨c, rest, rfl⟩ := List.exists_cons_of_ne_nil nonempty
  have kept : stripPrefix ['-'] (c :: rest) = none := by
    have differs : c ≠ '-' := by simpa using first
    simp [stripPrefix, List.isPrefixOf, Ne.symm differs]
  obtain rfl | rfl := dash
  · refine (argShape_cons nonempty).trans ?_
    simp only [kept, Option.getD_none]
    rw [if_neg nonempty, if_neg (not_or.mpr ⟨first, other⟩)]
  · refine (argShape_cons (List.cons_ne_nil '-' (c :: rest))).trans ?_
    have cut : stripPrefix ['-'] ('-' :: c :: rest) = some (c :: rest) := by simp [stripPrefix]
    simp only [cut, Option.getD_some]
    rw [if_neg nonempty, if_neg (not_or.mpr ⟨first, other⟩)]

theorem argShape_switch {dashes name : Str} {flag : Flag} {kind : FlagKind}
    (dash : IsDash dashes) (known : Known name flag kind) :
    argShape (dashes ++ name) = .flag name flag kind none := by
  obtain ⟨names, listed, named⟩ := known
  obtain ⟨found, nonempty, first, plain⟩ := name_ok listed named
  have other : name.head? ≠ some '=' := fun head => plain (List.mem_of_head? head)
  rw [argShape_dash dash nonempty first other, bodyShape, splitOnce_eq_none.mpr plain]
  simp only [found]

theorem argShape_inlined {dashes name : Str} {flag : Flag} {kind : FlagKind}
    (dash : IsDash dashes) (known : Known name flag kind) (value : Str) :
    argShape (dashes ++ (name ++ '=' :: value)) = .flag name flag kind (some value) := by
  obtain ⟨names, listed, named⟩ := known
  obtain ⟨found, nonempty, first, plain⟩ := name_ok listed named
  have head : (name ++ '=' :: value).head? = name.head? := by
    cases name with
    | nil => exact absurd rfl nonempty
    | cons c name => rfl
  have other : name.head? ≠ some '=' := fun head => plain (List.mem_of_head? head)
  rw [argShape_dash dash (by simp) (head ▸ first) (head ▸ other), bodyShape, splitOnce_append plain]
  simp only [found]

/-- An argument is no flag, or a dash with a text behind it. -/
theorem argShape_cases (arg : Str) :
    argShape arg = .other ∨ ∃ rest, rest ≠ [] ∧ arg = '-' :: rest := by
  by_cases short : arg.length < 2
  · exact .inl (by rw [argShape.eq_def, if_pos short])
  · by_cases dash : arg.head? = some '-'
    · obtain ⟨rest, rfl⟩ := List.head?_eq_some_iff.mp dash
      exact .inr ⟨rest, by rintro rfl; simp at short, rfl⟩
    · refine .inl ?_
      rw [argShape.eq_def, if_neg short]
      split
      · simp at dash
      · rfl

/-- The text behind the dashes of an argument. -/
theorem exists_body (rest : Str) :
    ∃ dashes, IsDash dashes ∧ '-' :: rest = dashes ++ (stripPrefix ['-'] rest).getD rest := by
  cases stripped : stripPrefix ['-'] rest with
  | none => exact ⟨"-".toList, .inl rfl, rfl⟩
  | some body =>
      rw [stripPrefix_eq_some] at stripped
      exact ⟨"--".toList, .inr rfl, by rw [stripped]; rfl⟩

theorem argShape_terminator : argShape "--".toList = .terminator := rfl

theorem bodyShape_ne_terminator (body : Str) : bodyShape body ≠ .terminator := by
  rw [bodyShape]
  split <;> split <;> simp

theorem eq_of_terminator {arg : Str} (shape : argShape arg = .terminator) :
    arg = "--".toList := by
  obtain other | ⟨rest, nonempty, rfl⟩ := argShape_cases arg
  · rw [other] at shape
    exact nomatch shape
  · rw [argShape_cons nonempty] at shape
    simp only at shape
    split at shape
    case isTrue empty =>
        cases stripped : stripPrefix ['-'] rest with
        | none => exact absurd (by simpa [stripped] using empty) nonempty
        | some body =>
            obtain rfl : body = [] := by simpa [stripped] using empty
            rw [stripPrefix_eq_some.mp stripped]
            rfl
    case isFalse =>
        split at shape
        · exact nomatch shape
        · exact absurd shape (bodyShape_ne_terminator _)

theorem bodyShape_eq_flag {body name : Str} {flag : Flag} {kind : FlagKind}
    {inlineValue : Option Str} (shape : bodyShape body = .flag name flag kind inlineValue) :
    Known name flag kind ∧
      match inlineValue with
      | none => body = name
      | some value => body = name ++ '=' :: value := by
  rw [bodyShape] at shape
  cases cut : splitOnce '=' body with
  | none =>
      simp only [cut] at shape
      cases found : findFlag body with
      | none => simp [found] at shape
      | some entry =>
          simp only [found, ArgShape.flag.injEq] at shape
          obtain ⟨rfl, rfl, rfl, rfl⟩ := shape
          exact ⟨findFlag_iff.mp found, rfl⟩
  | some halves =>
      obtain ⟨front, value⟩ := halves
      simp only [cut] at shape
      cases found : findFlag front with
      | none => simp [found] at shape
      | some entry =>
          simp only [found, ArgShape.flag.injEq] at shape
          obtain ⟨rfl, rfl, rfl, rfl⟩ := shape
          exact ⟨findFlag_iff.mp found, (splitOnce_eq_some.mp cut).2⟩

/-- A flag is one at which dashes, a name and perhaps a value stand. -/
theorem exists_of_flag {arg name : Str} {flag : Flag} {kind : FlagKind}
    {inlineValue : Option Str} (shape : argShape arg = .flag name flag kind inlineValue) :
    ∃ dashes, IsDash dashes ∧ Known name flag kind ∧
      match inlineValue with
      | none => arg = dashes ++ name
      | some value => arg = dashes ++ (name ++ '=' :: value) := by
  obtain other | ⟨rest, nonempty, rfl⟩ := argShape_cases arg
  · rw [other] at shape
    exact nomatch shape
  · obtain ⟨dashes, dash, parts⟩ := exists_body rest
    rw [argShape_cons nonempty] at shape
    simp only at shape
    split at shape
    · exact nomatch shape
    · split at shape
      · exact nomatch shape
      · obtain ⟨known, body⟩ := bodyShape_eq_flag shape
        refine ⟨dashes, dash, known, ?_⟩
        cases inlineValue with
        | none => exact parts.trans (congrArg _ body)
        | some value => exact parts.trans (congrArg _ body)

/-! ## The loop -/

section Scan

variable {quote : Str → Str}

theorem checkInt_of_valid {name value : Str} {kind : FlagKind} (valid : kind.Valid value) :
    checkInt quote name kind value = .ok () := by
  rw [checkInt, if_neg]
  rintro ⟨rfl, malformed⟩
  simp [FlagKind.Valid, malformed] at valid

theorem valid_of_checkInt {name value : Str} {kind : FlagKind} (other : kind ≠ .bool)
    (checked : checkInt quote name kind value = .ok ()) : kind.Valid value := by
  cases kind with
  | str => trivial
  | bool => exact absurd rfl other
  | int =>
      rw [FlagKind.Valid, Option.isSome_iff_ne_none]
      intro malformed
      simp [checkInt, malformed] at checked

theorem ownValue_inlined {name value : Str} {kind : FlagKind} (valid : kind.Valid value) :
    ownValue quote name kind (some value) = .ok (some value) := by
  cases kind with
  | str => rfl
  | int => rfl
  | bool =>
      have some : parseGoBool value ≠ none := Option.isSome_iff_ne_none.mp valid
      rw [ownValue, if_neg some]

theorem ownValue_next {name : Str} {kind : FlagKind} (other : kind ≠ .bool) :
    ownValue quote name kind none = .ok none := by
  cases kind with
  | str => rfl
  | int => rfl
  | bool => exact absurd rfl other

/-- The loop takes a flag with its value. -/
theorem scanArgs_flag {args : List Str} {flag : Flag} {value : Str} (is : IsFlag args flag value)
    (uses : Uses) (rest : List Str) :
    scanArgs quote uses (args ++ rest) = scanArgs quote (uses ++ [(flag, value)]) rest := by
  cases is with
  | switch dash known =>
      rw [List.singleton_append, scanArgs, argShape_switch dash known]
      have valid : FlagKind.bool.Valid "true".toList := rfl
      simp only [ownValue, checkInt_of_valid valid]
  | inlined dash known valid =>
      rw [List.singleton_append, scanArgs, argShape_inlined dash known]
      simp only [ownValue_inlined valid, checkInt_of_valid valid]
  | next dash known other valid =>
      rw [List.cons_append, List.singleton_append, scanArgs, argShape_switch dash known]
      simp only [ownValue_next other, checkInt_of_valid valid]

/-- The loop takes all flags. -/
theorem scanArgs_front {front : List Str} {new : Uses} (flagged : FlagArgs front new)
    (uses : Uses) (rest : List Str) :
    scanArgs quote uses (front ++ rest) = scanArgs quote (uses ++ new) rest := by
  induction flagged generalizing uses with
  | nil => simp
  | cons is flagged ih =>
      rw [List.append_assoc, scanArgs_flag is, ih, List.append_assoc, List.singleton_append]

/-- What is behind the flags when the loop stops. -/
inductive Stops : List Str → List Str → Prop where
  | done : Stops [] []
  | terminator {rest : List Str} : Stops ("--".toList :: rest) rest
  | other {arg : Str} {rest : List Str} : argShape arg = .other → Stops (arg :: rest) (arg :: rest)

theorem scanArgs_stop {tail rest : List Str} (stops : Stops tail rest) (uses : Uses) :
    scanArgs quote uses tail = .ok (uses, rest) := by
  cases stops with
  | done => rfl
  | terminator => rw [scanArgs, argShape_terminator]
  | other shape => rw [scanArgs, shape]

/-- A flag with its value in its own argument. -/
theorem isFlag_own {arg name value : Str} {flag : Flag} {kind : FlagKind}
    {inlineValue : Option Str} (shape : argShape arg = .flag name flag kind inlineValue)
    (own : ownValue quote name kind inlineValue = .ok (some value))
    (checked : checkInt quote name kind value = .ok ()) : IsFlag [arg] flag value := by
  obtain ⟨dashes, dash, known, parts⟩ := exists_of_flag shape
  by_cases boolean : kind = .bool
  · subst boolean
    cases inlineValue with
    | none =>
        obtain rfl : "true".toList = value := by simpa [ownValue] using own
        rw [show arg = dashes ++ name from parts]
        exact .switch dash known
    | some inner =>
        rw [ownValue] at own
        split at own
        · exact nomatch own
        · case isFalse valid =>
            obtain rfl : inner = value := by simpa using own
            rw [show arg = dashes ++ (name ++ '=' :: inner) from parts]
            exact .inlined dash known (Option.isSome_iff_ne_none.mpr valid)
  · have same : inlineValue = some value := by
      cases kind with
      | bool => exact absurd rfl boolean
      | str => simpa [ownValue] using own
      | int => simpa [ownValue] using own
    subst same
    rw [show arg = dashes ++ (name ++ '=' :: value) from parts]
    exact .inlined dash known (valid_of_checkInt boolean checked)

/-- A flag with its value in the next argument. -/
theorem isFlag_next {arg name value : Str} {flag : Flag} {kind : FlagKind}
    {inlineValue : Option Str} (shape : argShape arg = .flag name flag kind inlineValue)
    (own : ownValue quote name kind inlineValue = .ok none)
    (checked : checkInt quote name kind value = .ok ()) : IsFlag [arg, value] flag value := by
  obtain ⟨dashes, dash, known, parts⟩ := exists_of_flag shape
  have other : kind ≠ .bool := by
    rintro rfl
    cases inlineValue with
    | none => simp [ownValue] at own
    | some inner =>
        rw [ownValue] at own
        split at own
        · exact nomatch own
        · simp at own
  have same : inlineValue = none := by
    cases kind with
    | bool => exact absurd rfl other
    | str => simpa [ownValue] using own
    | int => simpa [ownValue] using own
  subst same
  rw [show arg = dashes ++ name from parts]
  exact .next dash known other (valid_of_checkInt other checked)

/-- The loop takes nothing but flags. -/
theorem exists_of_scanArgs {uses out : Uses} {args rest : List Str}
    (scanned : scanArgs quote uses args = .ok (out, rest)) :
    ∃ front new tail, FlagArgs front new ∧ out = uses ++ new ∧ args = front ++ tail ∧
      Stops tail rest := by
  -- a flag that the loop takes goes in front of the flags behind it
  have step {uses : Uses} {taken args : List Str} {flag : Flag} {value : Str}
      (is : IsFlag taken flag value)
      (later : ∃ front new tail, FlagArgs front new ∧ out = uses ++ [(flag, value)] ++ new ∧
        args = front ++ tail ∧ Stops tail rest) :
      ∃ front new tail, FlagArgs front new ∧ out = uses ++ new ∧ taken ++ args = front ++ tail ∧
        Stops tail rest := by
    obtain ⟨front, new, tail, flagged, rfl, rfl, stops⟩ := later
    exact ⟨taken ++ front, (flag, value) :: new, tail, .cons is flagged, by simp, by simp, stops⟩
  fun_induction scanArgs quote uses args with
  | case1 uses =>
      obtain ⟨rfl, rfl⟩ : uses = out ∧ [] = rest := by simpa using scanned
      exact ⟨[], [], [], .nil, by simp, rfl, .done⟩
  | case2 uses arg args shape =>
      obtain ⟨rfl, rfl⟩ : uses = out ∧ arg :: args = rest := by simpa using scanned
      exact ⟨[], [], arg :: args, .nil, by simp, rfl, .other shape⟩
  | case3 uses arg args shape =>
      obtain ⟨rfl, rfl⟩ : uses = out ∧ args = rest := by simpa using scanned
      rw [eq_of_terminator shape]
      exact ⟨[], [], "--".toList :: args, .nil, by simp, rfl, .terminator⟩
  | case4 => exact nomatch scanned
  | case5 => exact nomatch scanned
  | case6 => exact nomatch scanned
  | case7 => exact nomatch scanned
  | case8 uses arg args name flag kind inlineValue shape value own checked ih =>
      exact step (isFlag_own shape own checked) (ih scanned)
  | case9 => exact nomatch scanned
  | case10 => exact nomatch scanned
  | case11 uses arg name flag kind inlineValue shape own value args checked ih =>
      exact step (isFlag_next shape own checked) (ih scanned)

/-! ## Routes -/

theorem parseRouteEntry_ok {entry : Str} {route : RouteValues} :
    parseRouteEntry quote entry = .ok route ↔ IsRouteEntry entry route := by
  constructor
  · intro parsed
    rw [parseRouteEntry] at parsed
    split at parsed
    case h_1 upstreamUrl publicUrl parts =>
        split at parsed
        · exact nomatch parsed
        · case isFalse some =>
            obtain rfl := Except.ok.inj parsed
            obtain ⟨upstream, isPublic⟩ := not_or.mp some
            exact ⟨upstream, isPublic, .inl ⟨parts, rfl⟩⟩
    case h_2 upstreamUrl publicUrl acmeDomain parts =>
        split at parsed
        · exact nomatch parsed
        · case isFalse some =>
            split at parsed
            · exact nomatch parsed
            · case isFalse domain =>
                obtain rfl := Except.ok.inj parsed
                obtain ⟨upstream, isPublic⟩ := not_or.mp some
                exact ⟨upstream, isPublic, .inr ⟨parts, domain⟩⟩
    case h_3 => exact nomatch parsed
  · obtain ⟨upstreamUrl, publicUrl, acmeDomain⟩ := route
    rintro ⟨upstream, isPublic, ⟨parts, rfl⟩ | ⟨parts, domain⟩⟩
    · simp only [parseRouteEntry, parts]
      rw [if_neg (not_or.mpr ⟨upstream, isPublic⟩)]
    · simp only [parseRouteEntry, parts]
      rw [if_neg (not_or.mpr ⟨upstream, isPublic⟩), if_neg domain]

theorem parseRouteValues_ok {value : Str} {routes : List RouteValues} :
    parseRouteValues quote value = .ok routes ↔ AreRoutes value routes ∧ routes ≠ [] := by
  rw [parseRouteValues, Results.bind_eq_ok]
  simp only [Results.mapM_eq_ok, parseRouteEntry_ok]
  constructor
  · rintro ⟨found, entries, kept⟩
    split at kept
    · exact nomatch kept
    · case isFalse nonempty =>
        obtain rfl := Except.ok.inj kept
        exact ⟨entries, nonempty⟩
  · rintro ⟨entries, nonempty⟩
    exact ⟨routes, entries, if_neg nonempty⟩

/-- The entries of texts that are joined are those of each. -/
theorem routeEntries_join (value : Str) (values : List Str) :
    routeEntries ([';'].intercalate (value :: values)) =
      (value :: values).flatMap routeEntries := by
  induction values generalizing value with
  | nil => simp
  | cons next values ih =>
      have cut : ([';'].intercalate (value :: next :: values)).splitOn ';' =
          value.splitOn ';' ++ ([';'].intercalate (next :: values)).splitOn ';' := by
        rw [List.intercalate_cons_cons, List.append_assoc, List.singleton_append,
          List.splitOn_append_cons_self]
      rw [routeEntries, cut, List.map_append, List.filter_append, List.flatMap_cons, ← ih]
      rfl

theorem areRoutes_join {values : List Str} (nonempty : values ≠ []) {routes : List RouteValues} :
    AreRoutes ([';'].intercalate values) routes ↔
      ∃ lists, List.Forall₂ AreRoutes values lists ∧ routes = lists.flatten := by
  obtain ⟨value, values, rfl⟩ := List.exists_cons_of_ne_nil nonempty
  rw [AreRoutes, routeEntries_join, List.flatMap_def, Results.forall₂_flatten]
  simp only [List.forall₂_map_left_iff]
  rfl

/-! ## The values of the flags -/

/-- The kind of the values of a flag. -/
def Flag.kind : Flag → FlagKind
  | .tlsEnable | .trustProxyHeaders | .hideClient | .debug | .logTime | .statsEnable | .help
  | .version => .bool
  | .playbackinfoMaxBytes | .responseHeaderTimeout => .int
  | _ => .str

theorem kind_of_known {name : Str} {flag : Flag} {kind : FlagKind}
    (known : Known name flag kind) : kind = flag.kind := by
  obtain ⟨names, listed, -⟩ := known
  have kinds : ∀ entry ∈ flags, entry.2.2 = entry.2.1.kind := by decide
  exact kinds _ listed

theorem valid_of_isFlag {args : List Str} {flag : Flag} {value : Str}
    (is : IsFlag args flag value) : flag.kind.Valid value := by
  cases is with
  | switch dash known => exact kind_of_known known ▸ rfl
  | inlined dash known valid => exact kind_of_known known ▸ valid
  | next dash known boolean valid => exact kind_of_known known ▸ valid

theorem valid_of_mem {front : List Str} {uses : Uses} (flagged : FlagArgs front uses)
    {flag : Flag} {value : Str} (used : (flag, value) ∈ uses) : flag.kind.Valid value := by
  induction flagged with
  | nil => simp at used
  | cons is flagged ih =>
      obtain same | used := List.mem_cons.mp used
      · obtain ⟨rfl, rfl⟩ := Prod.mk.inj same
        exact valid_of_isFlag is
      · exact ih used

/-- The value of a flag is that of its last use. -/
theorem lastValue_eq_some {uses : Uses} {flag : Flag} {value : Str} :
    lastValue uses flag = some value ↔
      ∃ before after, uses = before ++ (flag, value) :: after ∧ ∀ use ∈ after, use.1 ≠ flag := by
  rw [lastValue, Option.map_eq_some_iff, List.findRev?_eq_find?_reverse]
  constructor
  · rintro ⟨⟨flag', value⟩, found, rfl⟩
    obtain ⟨same, after, before, whole, none⟩ := List.find?_eq_some_iff_append.mp found
    obtain rfl : flag' = flag := by simpa using same
    refine ⟨before.reverse, after.reverse, ?_, fun use member => ?_⟩
    · rw [← List.reverse_reverse uses, whole]
      simp
    · simpa using none use (List.mem_reverse.mp member)
  · rintro ⟨before, after, rfl, none⟩
    refine ⟨(flag, value), List.find?_eq_some_iff_append.mpr ⟨by simp, after.reverse,
      before.reverse, by simp, fun use member => ?_⟩, rfl⟩
    simpa using none use (List.mem_reverse.mp member)

theorem mem_of_lastValue {uses : Uses} {flag : Flag} {value : Str}
    (last : lastValue uses flag = some value) : (flag, value) ∈ uses := by
  obtain ⟨before, after, rfl, -⟩ := lastValue_eq_some.mp last
  simp

theorem lastValue_eq_none {uses : Uses} {flag : Flag} :
    lastValue uses flag = none ↔ ∀ use ∈ uses, use.1 ≠ flag := by
  rw [lastValue, Option.map_eq_none_iff, List.findRev?_eq_find?_reverse, List.find?_eq_none]
  simp

theorem lastValue_route {uses : Uses} : lastValue uses .route = none ↔ routeValues uses = [] := by
  rw [lastValue_eq_none, routeValues, List.map_eq_nil_iff, List.filter_eq_nil_iff]
  simp

theorem asBool_lastValue {front : List Str} {uses : Uses} (flagged : FlagArgs front uses)
    {flag : Flag} (boolean : flag.kind = .bool) :
    (lastValue uses flag).map asBool = (lastValue uses flag).bind parseGoBool := by
  cases last : lastValue uses flag with
  | none => rfl
  | some value =>
      have valid := valid_of_mem flagged (mem_of_lastValue last)
      rw [boolean, FlagKind.Valid, Option.isSome_iff_exists] at valid
      obtain ⟨read, parsed⟩ := valid
      simp [asBool, parsed]

theorem usedRoutes_ok {uses : Uses} {routes : Option (List RouteValues)} :
    usedRoutes quote uses = .ok routes ↔ RoutesOf uses routes := by
  rw [usedRoutes, RoutesOf]
  cases last : lastValue uses .route with
  | none =>
      have empty := lastValue_route.mp last
      simp [empty, eq_comm]
  | some value =>
      have nonempty : routeValues uses ≠ [] := fun empty => by
        rw [lastValue_route.mpr empty] at last
        exact nomatch last
      simp only [Results.map_eq_ok, parseRouteValues_ok, areRoutes_join nonempty]
      constructor
      · rintro ⟨found, ⟨⟨lists, entries, rfl⟩, some⟩, rfl⟩
        exact .inr ⟨lists, nonempty, entries, some, rfl⟩
      · rintro (⟨empty, -⟩ | ⟨lists, -, entries, some, rfl⟩)
        · exact absurd empty nonempty
        · exact ⟨_, ⟨⟨lists, entries, rfl⟩, some⟩, rfl⟩

theorem ofUses_holds {front : List Str} {uses : Uses} (flagged : FlagArgs front uses) {cli : Cli}
    (parsed : Cli.ofUses quote uses = .ok cli) :
    ∃ routes, RoutesOf uses routes ∧ cli.Holds uses routes := by
  obtain ⟨routes, found, rfl⟩ := Results.map_eq_ok.mp parsed
  refine ⟨routes, usedRoutes_ok.mp found, ?_⟩
  have switch {flag : Flag} (boolean : flag.kind = .bool) :=
    asBool_lastValue flagged boolean
  have asks (last : Option Bool) : last.getD false = true ↔ last = some true := by
    cases last <;> simp
  constructor
  case options =>
    intro flag option other
    have text (last : Option Str) : last = last.bind some := (Option.bind_fun_some last).symm
    have list (last : Option Str) : last.map splitCsv = last.bind (some ∘ splitCsv) := by
      cases last <;> rfl
    cases flag
    case config => exact absurd rfl option.1
    case help => exact absurd rfl option.2.1
    case version => exact absurd rfl option.2.2
    case route => exact absurd rfl other
    all_goals first
      | exact switch rfl
      | exact text _
      | exact list _
      | rfl
  case routes => rfl
  case config => rfl
  case help => rw [← switch rfl]; exact asks _
  case version => rw [← switch rfl]; exact asks _

theorem exists_ofUses {uses : Uses} {routes : Option (List RouteValues)}
    (routed : RoutesOf uses routes) : ∃ cli, Cli.ofUses quote uses = .ok cli :=
  ⟨_, Results.map_eq_ok.mpr ⟨routes, usedRoutes_ok.mpr routed, rfl⟩⟩

/-! ## Argument lists -/

/-- What is behind the flags of an argument list that is taken. -/
def IsEnd (tail : List Str) : Prop :=
  tail = [] ∨ tail = ["--".toList] ∨ tail = ["--".toList, "--".toList]

theorem isEnd_iff {tail : List Str} :
    IsEnd tail ↔ ∃ rest, Stops tail rest ∧ extraArg rest = none := by
  constructor
  · rintro (rfl | rfl | rfl)
    · exact ⟨[], .done, rfl⟩
    · exact ⟨[], .terminator, rfl⟩
    · exact ⟨["--".toList], .terminator, rfl⟩
  · rintro ⟨rest, stops, none⟩
    cases stops with
    | done => exact .inl rfl
    | terminator =>
        cases rest with
        | nil => exact .inr (.inl rfl)
        | cons arg rest =>
            rw [extraArg] at none
            split at none
            · case isTrue same =>
                rw [List.head?_eq_none_iff] at none
                exact .inr (.inr (by rw [same, none]))
            · exact nomatch none
    | @other arg rest shape =>
        rw [extraArg] at none
        split at none
        · case isTrue same =>
            rw [same, argShape_terminator] at shape
            exact nomatch shape
        · exact nomatch none

theorem parseFlags_ok {args : List Str} (plain : ∀ arg ∈ args, isDashHelp arg = false) {cli : Cli} :
    parseFlags quote args = .ok cli ↔
      ∃ front uses tail, FlagArgs front uses ∧ IsEnd tail ∧ args = front ++ tail ∧
        Cli.ofUses quote uses = .ok cli := by
  have unasked : args.any isDashHelp = false := by simpa using plain
  rw [parseFlags, unasked, if_neg (by simp)]
  constructor
  · intro parsed
    cases scanned : scanArgs quote [] args with
    | error e => simp [scanned] at parsed
    | ok result =>
        obtain ⟨uses, rest⟩ := result
        simp only [scanned] at parsed
        cases extra : extraArg rest with
        | some arg => simp [extra] at parsed
        | none =>
            simp only [extra] at parsed
            obtain ⟨front, new, tail, flagged, rfl, rfl, stops⟩ := exists_of_scanArgs scanned
            exact ⟨front, _, tail, flagged, isEnd_iff.mpr ⟨rest, stops, extra⟩, rfl, parsed⟩
  · rintro ⟨front, uses, tail, flagged, ends, rfl, made⟩
    obtain ⟨rest, stops, extra⟩ := isEnd_iff.mp ends
    rw [scanArgs_front flagged, scanArgs_stop stops]
    simpa [extra] using made

/-- The loop stops at one place. -/
theorem rest_unique {front front' tail tail' rest rest' : List Str} {uses uses' : Uses}
    (flagged : FlagArgs front uses) (stops : Stops tail rest) (flagged' : FlagArgs front' uses')
    (stops' : Stops tail' rest') (same : front ++ tail = front' ++ tail') :
    uses = uses' ∧ rest = rest' := by
  have scanned : scanArgs id [] (front ++ tail) = scanArgs id ([] ++ uses) tail :=
    scanArgs_front flagged [] tail
  have scanned' : scanArgs id [] (front' ++ tail') = scanArgs id ([] ++ uses') tail' :=
    scanArgs_front flagged' [] tail'
  rw [scanArgs_stop stops] at scanned
  rw [scanArgs_stop stops', ← same, scanned] at scanned'
  simpa using scanned'

/-- Flags with two terminators behind them are no flags with one. -/
theorem two_terminators {front front' : List Str} {uses uses' : Uses}
    (flagged : FlagArgs front uses) (flagged' : FlagArgs front' uses') :
    ¬(front ++ ["--".toList, "--".toList] = front' ∨
      front ++ ["--".toList, "--".toList] = front' ++ ["--".toList]) := by
  rintro (same | same)
  · have unique := rest_unique flagged .terminator flagged' .done
      (same.trans (List.append_nil front').symm)
    exact absurd unique.2 (by simp)
  · have unique := rest_unique flagged .terminator flagged' .terminator same
    exact absurd unique.2 (by simp)

/-- The argument lists that are taken are sequences of flags with at most one terminator behind
them, but for those with a second terminator: the loop takes the first one with it. -/
theorem parses_flags_iff {args : List Str} (plain : ∀ arg ∈ args, isDashHelp arg = false) :
    ParsesFlags quote args ↔
      ¬∃ front uses routes, FlagArgs front uses ∧ RoutesOf uses routes ∧
        args = front ++ ["--".toList, "--".toList] := by
  constructor
  · rintro parses ⟨front, uses, routes, flagged, routed, rfl⟩
    obtain ⟨cli, made⟩ : ∃ cli, Cli.ofUses quote uses = .ok cli := exists_ofUses routed
    have taken := (parseFlags_ok plain).mpr ⟨front, uses, _, flagged, .inr (.inr rfl), rfl, made⟩
    obtain ⟨front', uses', routes', flagged', routed', ends⟩ := parses.accepts.mp ⟨cli, taken⟩
    exact two_terminators flagged flagged' ends
  · intro single
    have sets (cli : Cli) (parsed : parseFlags quote args = .ok cli) :
        ∃ front uses routes, FlagArgs front uses ∧ RoutesOf uses routes ∧
          (args = front ∨ args = front ++ ["--".toList]) ∧ cli.Holds uses routes := by
      obtain ⟨front, uses, tail, flagged, ends, rfl, made⟩ := (parseFlags_ok plain).mp parsed
      obtain ⟨routes, routed, holds⟩ := ofUses_holds flagged made
      refine ⟨front, uses, routes, flagged, routed, ?_, holds⟩
      obtain rfl | rfl | rfl := ends
      · exact .inl (List.append_nil front)
      · exact .inr rfl
      · exact absurd ⟨front, uses, routes, flagged, routed, rfl⟩ single
    refine ⟨⟨?_, ?_⟩, sets⟩
    · rintro ⟨cli, parsed⟩
      obtain ⟨front, uses, routes, flagged, routed, ends, -⟩ := sets cli parsed
      exact ⟨front, uses, routes, flagged, routed, ends⟩
    · rintro ⟨front, uses, routes, flagged, routed, ends⟩
      obtain ⟨cli, made⟩ : ∃ cli, Cli.ofUses quote uses = .ok cli := exists_ofUses routed
      refine ⟨cli, (parseFlags_ok plain).mpr ?_⟩
      obtain rfl | rfl := ends
      · exact ⟨args, uses, [], flagged, .inl rfl, (List.append_nil args).symm, made⟩
      · exact ⟨front, uses, _, flagged, .inr (.inl rfl), rfl, made⟩

/-- A debug flag with the terminator behind it. -/
theorem parses_flags_iff_debug : ParsesFlags id ["-d".toList, "--".toList] := by
  refine (parses_flags_iff (by decide)).mpr ?_
  rintro ⟨front, uses, routes, flagged, routed, same⟩
  have empty : front = [] := by simpa using congrArg List.length same
  rw [empty] at same
  exact absurd same (by decide)

/-- Two terminators are taken: the one that the loop leaves is not the one that it saw. -/
theorem takes_two_terminators :
    (∃ cli, parseFlags id ["--".toList, "--".toList] = .ok cli) ∧
      ¬ParsesFlags id ["--".toList, "--".toList] := by
  have taken : ∃ cli, parseFlags id ["--".toList, "--".toList] = .ok cli := ⟨_, rfl⟩
  refine ⟨taken, fun parses => ?_⟩
  obtain ⟨front, uses, routes, flagged, routed, ends⟩ := parses.accepts.mp taken
  exact two_terminators .nil flagged ends

end Scan

end Proxemby.Loading
