import Proxemby.Util

/-!
# Log records

`src/logging.rs`: levels and formats, the attributes of a record, and the line that
`Logger::log` writes for it as text or as JSON.
-/

namespace Proxemby.Logging

open Text

/-! ## Configuration -/

inductive Level where
  | debug
  | info
  | warn
  | error
  deriving DecidableEq

namespace Level

def asStr : Level → Str
  | .debug => "DEBUG".toList
  | .info => "INFO".toList
  | .warn => "WARN".toList
  | .error => "ERROR".toList

/-- The place of a level in the order of the variants. -/
def rank : Level → Nat
  | .debug => 0
  | .info => 1
  | .warn => 2
  | .error => 3

end Level

inductive Format where
  | text
  | json
  deriving DecidableEq

structure Config where
  level : Level
  format : Format
  time : Bool
  deriving DecidableEq

def defaultLevel : Str := "info".toList

def defaultFormat : Str := "text".toList

def parseLevel (level : Str) : Except Str Level :=
  let level := toAsciiLowercase (trim level)
  if level = "debug".toList then .ok .debug
  else if level = "info".toList then .ok .info
  else if level = "warn".toList ∨ level = "warning".toList then .ok .warn
  else if level = "error".toList then .ok .error
  else .error "log level must be debug, info, warn, or error".toList

def parseFormat (format : Str) : Except Str Format :=
  let format := toAsciiLowercase (trim format)
  if format = "text".toList then .ok .text
  else if format = "json".toList then .ok .json
  else .error "log format must be text or json".toList

def parseConfig (level format : Str) (time : Bool) : Except Str Config := do
  let level ← parseLevel level
  let format ← parseFormat format
  return { level, format, time }

/-! ## Numbers and times -/

/-- A number with zeros in front, up to a width. -/
def padded (base width n : Nat) : Str :=
  let digits := Nat.toDigits base n
  List.replicate (width - digits.length) '0' ++ digits

def intText (n : Int) : Str :=
  match n with
  | .ofNat n => Nat.toDigits 10 n
  | .negSucc n => '-' :: Nat.toDigits 10 (n + 1)

/-- A duration of some nanoseconds, rounded to milliseconds. -/
def formatDuration (nanos : Nat) : Str :=
  let ms := (nanos / 1000 + 500) / 1000
  if ms = 0 then "0s".toList
  else if ms < 1000 then Nat.toDigits 10 ms ++ "ms".toList
  else
    let totalSecs := ms / 1000
    let frac := ms % 1000
    let hours := totalSecs / 3600
    let minutes := totalSecs % 3600 / 60
    let secs := totalSecs % 60
    (if 0 < hours then Nat.toDigits 10 hours ++ ['h'] else []) ++
      (if 0 < hours ∨ 0 < minutes then Nat.toDigits 10 minutes ++ ['m'] else []) ++
      if frac = 0 then Nat.toDigits 10 secs ++ ['s']
      else Nat.toDigits 10 secs ++ '.' :: (padded 10 3 frac).rdropWhile (· = '0') ++ ['s']

/-- The year, month and day of a day since the Unix epoch.  The operands of the truncating
divisions are not negative, so that these round like the others. -/
def civilFromDays (days : Int) : Int × Int × Int :=
  let z := days + 719468
  let era := z / 146097
  let doe := z % 146097
  let yoe := (doe - doe / 1460 + doe / 36524 - doe / 146096) / 365
  let y := yoe + era * 400
  let doy := doe - (365 * yoe + yoe / 4 - yoe / 100)
  let mp := (5 * doy + 2) / 153
  let d := doy - (153 * mp + 2) / 5 + 1
  let m := if mp < 10 then mp + 3 else mp - 9
  (if m ≤ 2 then y + 1 else y, m, d)

/-- The parts of a timestamp as RFC 3339 with milliseconds. -/
def timestamp (year month day hour minute second millis : Nat) : Str :=
  padded 10 4 year ++ '-' :: padded 10 2 month ++ '-' :: padded 10 2 day ++
    'T' :: padded 10 2 hour ++ ':' :: padded 10 2 minute ++ ':' :: padded 10 2 second ++
    '.' :: padded 10 3 millis ++ ['Z']

/-- A UTC timestamp of a time in nanoseconds since the Unix epoch; an earlier time is that of
the epoch. -/
def formatTime (time : Int) : Str :=
  let since := time.toNat
  let secs : Int := (since / 1000000000 : Nat)
  let millis := since % 1000000000 / 1000000
  let days := secs / 86400
  let rem := secs % 86400
  let (year, month, day) := civilFromDays days
  timestamp year.toNat month.toNat day.toNat
    (rem / 3600).toNat (rem % 3600 / 60).toNat (rem % 60).toNat millis

/-! ## Attributes -/

inductive Value where
  | str (value : Str)
  | int (value : Int)
  | bool (value : Bool)
  | list (items : List Str)
  | duration (nanos : Nat)

def isKeyChar (c : Char) : Bool := c.isAlphanum || c == '_'

/-- The name of an attribute, a constant of the program. -/
structure Key where
  text : Str
  chars : text ≠ [] ∧ ∀ c ∈ text, isKeyChar c = true

abbrev Attrs := List (Key × Value)

example : ∀ name ∈ ["acme_domain", "addr", "allowed", "bytes", "cache_dir", "client", "count",
    "domains", "duration", "error", "event", "file", "from", "grace", "host", "json_path",
    "max_bytes", "method", "path", "public_url", "reason", "remote", "route", "scheme", "signal",
    "source", "state_file", "status", "target", "timeout", "to", "trust_proxy_headers",
    "upstream_url", "user", "user_agent", "users", "version", "x_forwarded_for", "x_real_ip"],
    name.toList ≠ [] ∧ ∀ c ∈ name.toList, isKeyChar c = true := by decide +kernel

/-! ## Text -/

def needsQuoting (s : Str) : Bool :=
  s.isEmpty || s.any fun c => c == ' ' || c == '=' || c == '"' || isControl c || c == '\uFFFD'

/-- What stands for a character in quotes. -/
def textChar (c : Char) : Str :=
  if c = '"' then "\\\"".toList
  else if c = '\\' then "\\\\".toList
  else if c = '\n' then "\\n".toList
  else if c = '\r' then "\\r".toList
  else if c = '\t' then "\\t".toList
  else if isControl c then '\\' :: 'x' :: padded 16 2 c.toNat
  else [c]

/-- What `push_text_string` appends. -/
def pushTextString (s : Str) : Str :=
  if !needsQuoting s then s else '"' :: s.flatMap textChar ++ ['"']

def boolText (value : Bool) : Str := if value then "true".toList else "false".toList

/-- What `push_text_value` appends. -/
def pushTextValue : Value → Str
  | .str s => pushTextString s
  | .int i => intText i
  | .bool b => boolText b
  | .list items => pushTextString ('[' :: [' '].intercalate items ++ [']'])
  | .duration d => formatDuration d

/-! ## JSON -/

def jsonChar (c : Char) : Str :=
  if c = '"' then "\\\"".toList
  else if c = '\\' then "\\\\".toList
  else if c = '\n' then "\\n".toList
  else if c = '\r' then "\\r".toList
  else if c = '\t' then "\\t".toList
  else if c.toNat < 0x20 then '\\' :: 'u' :: padded 16 4 c.toNat
  else [c]

/-- What `push_json_string` appends. -/
def pushJsonString (s : Str) : Str := '"' :: s.flatMap jsonChar ++ ['"']

/-- The items of a list, with commas between them. -/
def pushJsonItems (first : Bool) : List Str → Str
  | [] => []
  | item :: items =>
      (if first then [] else [',']) ++ pushJsonString item ++ pushJsonItems false items

/-- What `push_json_value` appends. -/
def pushJsonValue : Value → Str
  | .str s => pushJsonString s
  | .int i => intText i
  | .bool b => boolText b
  | .list items => '[' :: pushJsonItems true items ++ [']']
  | .duration d => Nat.toDigits 10 d

/-! ## Loggers -/

structure Logger where
  config : Config
  attrs : Attrs

namespace Logger

variable (logger : Logger)

/-- The logger with more attributes. -/
def withAttrs (attrs : Attrs) : Logger := { logger with attrs := logger.attrs ++ attrs }

def enabled (level : Level) : Bool := decide (logger.config.level.rank ≤ level.rank)

def textLine (time : Option Str) (level : Level) (msg : Str) (attrs : Attrs) : Str :=
  (match time with
    | some time => "time=".toList ++ time ++ [' ']
    | none => []) ++
  "level=".toList ++ level.asStr ++ " msg=".toList ++ pushTextString msg ++
  (logger.attrs ++ attrs).flatMap fun attr =>
    ' ' :: attr.1.text ++ '=' :: pushTextValue attr.2

def jsonLine (time : Option Str) (level : Level) (msg : Str) (attrs : Attrs) : Str :=
  '{' :: (match time with
    | some time => "\"time\":".toList ++ pushJsonString time ++ [',']
    | none => []) ++
  "\"level\":".toList ++ pushJsonString level.asStr ++ ",\"msg\":".toList ++
  pushJsonString msg ++
  (logger.attrs ++ attrs).flatMap (fun attr =>
    ',' :: pushJsonString attr.1.text ++ ':' :: pushJsonValue attr.2) ++ ['}']

/-- What is written to the sink at a time, if anything. -/
def log (now : Int) (level : Level) (msg : Str) (attrs : Attrs) : Option Str :=
  if !logger.enabled level then none
  else
    let time := if logger.config.time then some (formatTime now) else none
    let line :=
      match logger.config.format with
      | .text => logger.textLine time level msg attrs
      | .json => logger.jsonLine time level msg attrs
    some (line ++ ['\n'])

end Logger

example : formatDuration 125004000000 = "2m5.004s".toList := by decide

example : formatTime 1790000000123000000 = "2026-09-21T14:13:20.123Z".toList := by decide

end Proxemby.Logging
