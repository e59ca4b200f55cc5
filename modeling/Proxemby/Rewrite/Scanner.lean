import Mathlib.Algebra.Group.Nat.Defs
import Proxemby.Util

/-!
# The JSON scanner

`scan` and `Scanner` of `src/rewrite.rs`.  Positions are octet offsets into the
UTF-8 form of the text.  A scanning step either goes on, refuses the text, or
would panic at a slice that is out of bounds or not on character boundaries;
the loops and the recursion run on fuel.
-/

namespace Proxemby

open Utf8

/-- Outcome of a scanning step: a result, the refusal `None` of the source, a
panic, or no fuel. -/
inductive Scan (α : Type) where
  | ok (value : α)
  | none
  | panic
  | fuel
  deriving DecidableEq

namespace Scan

/-- Go on with a result, like the `?` operator. -/
def bind {α β : Type} (step : Scan α) (next : α → Scan β) : Scan β :=
  match step with
  | ok value => next value
  | none => none
  | panic => panic
  | fuel => fuel

instance : Monad Scan where
  pure := ok
  bind := bind

/-- A refusal where the option is empty. -/
def ofOption {α : Type} : Option α → Scan α
  | some value => ok value
  | Option.none => none

/-- A panic where the option is empty. -/
def expect {α : Type} : Option α → Scan α
  | some value => ok value
  | Option.none => panic

@[simp] theorem ok_bind {α β : Type} (value : α) (next : α → Scan β) :
    (ok value >>= next) = next value := rfl

@[simp] theorem pure_eq {α : Type} (value : α) : (pure value : Scan α) = ok value := rfl

theorem bind_eq_ok {α β : Type} {step : Scan α} {next : α → Scan β} {result : β} :
    (step >>= next) = ok result ↔ ∃ value, step = ok value ∧ next value = ok result := by
  cases step <;> simp [Bind.bind, bind]

@[simp] theorem ofOption_eq_ok {α : Type} {found : Option α} {value : α} :
    ofOption found = ok value ↔ found = some value := by
  cases found <;> simp [ofOption]

@[simp] theorem expect_eq_ok {α : Type} {found : Option α} {value : α} :
    expect found = ok value ↔ found = some value := by
  cases found <;> simp [expect]

end Scan

/-! ## Slices of a string by octet offsets -/

/-- Cut a string after `n` octets; `none` when that is past the end or inside a
character. -/
def cutAt : Nat → Str → Option (Str × Str)
  | 0, text => some ([], text)
  | _ + 1, [] => none
  | n + 1, c :: text =>
      if c.utf8Size ≤ n + 1 then
        (cutAt (n + 1 - c.utf8Size) text).map fun halves => (c :: halves.1, halves.2)
      else none

/-- `text[start..]`. -/
def sliceFrom (text : Str) (start : Nat) : Option Str :=
  (cutAt start text).map fun halves => halves.2

/-- `text[start..stop]`. -/
def slice (text : Str) (start stop : Nat) : Option Str :=
  if start ≤ stop then
    (sliceFrom text start).bind fun rest =>
      (cutAt (stop - start) rest).map fun halves => halves.1
  else none

/-! ## Numbers and characters of the standard library -/

/-- The value of a hexadecimal digit in either case. -/
def hexDigitValue (c : Char) : Option Nat :=
  if '0' ≤ c && c ≤ '9' then some (c.toNat - '0'.toNat)
  else if 'a' ≤ c && c ≤ 'f' then some (c.toNat - 'a'.toNat + 10)
  else if 'A' ≤ c && c ≤ 'F' then some (c.toNat - 'A'.toNat + 10)
  else none

/-- Remove a leading plus sign that something follows. -/
def stripPlus : Str → Str
  | '+' :: c :: rest => c :: rest
  | digits => digits

theorem stripPlus_of_ne {c : Char} (noPlus : c ≠ '+') (rest : Str) :
    stripPlus (c :: rest) = c :: rest := by
  rw [stripPlus]
  rintro d rest' equal
  exact absurd (List.cons.inj equal).1 noPlus

/-- `u32::from_str_radix(digits, 16)`: an optional plus sign, then digits. -/
def u32FromStrRadix16 (digits : Str) : Option Nat :=
  let digits := stripPlus digits
  if digits = [] then none
  else
    digits.foldlM (fun value c => do
      let digit ← hexDigitValue c
      if value * 16 + digit < 2 ^ 32 then some (value * 16 + digit) else none) 0

/-- `char::from_u32`. -/
def charFromU32 (n : Nat) : Option Char :=
  if n.isValidChar then some (Char.ofNat n) else none

/-! ## The scanner -/

structure FoundString where
  start : Nat
  stop : Nat
  path : Str
  value : Str
  deriving DecidableEq

inductive Segment where
  | key (key : Str)
  | index (index : Nat)
  deriving DecidableEq

def maxDepth : Nat := 512

structure Scanner where
  text : Str
  pos : Nat
  stack : List Segment
  found : List FoundString
  deriving DecidableEq

/-- Skip white space from `pos` on, where `rest` are the octets there. -/
def skipWsFrom : Bytes → Nat → Nat
  | [], pos => pos
  | b :: rest, pos =>
      if b = 0x20 || b = 0x09 || b = 0x0A || b = 0x0D then skipWsFrom rest (pos + 1)
      else pos

/-- Skip ASCII digits from `pos` on. -/
def digitsFrom : Bytes → Nat → Nat
  | [], pos => pos
  | b :: rest, pos => if 0x30 ≤ b && b ≤ 0x39 then digitsFrom rest (pos + 1) else pos

/-- The fast loop of `string`: the position of the closing quote (`true`) or of
the first backslash (`false`), unless a control character or the end is met. -/
def plainFrom : Bytes → Nat → Option (Bool × Nat)
  | [], _ => none
  | b :: rest, pos =>
      if b = 0x22 then some (true, pos)
      else if b = 0x5C then some (false, pos)
      else if b < 0x20 then none
      else plainFrom rest (pos + 1)

/-- The characters of the two-character escapes. -/
def escapeChar (b : UInt8) : Option Char :=
  if b = 0x22 then some '"'
  else if b = 0x5C then some '\\'
  else if b = 0x2F then some '/'
  else if b = 0x62 then some '\x08'
  else if b = 0x66 then some '\x0C'
  else if b = 0x6E then some '\n'
  else if b = 0x72 then some '\r'
  else if b = 0x74 then some '\t'
  else none

namespace Scanner

def bytes (s : Scanner) : Bytes := encode s.text

/-- The octet at the position. -/
def byte? (s : Scanner) : Option UInt8 := s.bytes[s.pos]?

def advance (s : Scanner) (n : Nat) : Scanner := { s with pos := s.pos + n }

def skipWs (s : Scanner) : Scanner :=
  { s with pos := skipWsFrom (s.bytes.drop s.pos) s.pos }

/-- Whether the octets from `start` on begin with `word`; a panic past the end. -/
def startsWith (s : Scanner) (start : Nat) (word : Bytes) : Scan Bool :=
  if start ≤ s.bytes.length then .ok (word.isPrefixOf (s.bytes.drop start)) else .panic

def literal (s : Scanner) (word : Bytes) : Scan Scanner := do
  if ← s.startsWith s.pos word then .ok (s.advance word.length) else .none

/-- Skip digits; whether there were any. -/
def digits (s : Scanner) : Bool × Scanner :=
  let stop := digitsFrom (s.bytes.drop s.pos) s.pos
  (decide (s.pos < stop), { s with pos := stop })

/-- Skip digits and refuse if there are none. -/
def someDigits (s : Scanner) : Scan Scanner :=
  if s.digits.1 then .ok s.digits.2 else .none

/-- The integer part of `number`. -/
def intPart (s : Scanner) : Scan Scanner :=
  match s.byte? with
  | some b =>
      if b = 0x30 then .ok (s.advance 1)
      else if 0x31 ≤ b && b ≤ 0x39 then .ok s.digits.2
      else .none
  | none => .none

/-- The fraction of `number`, if there is one. -/
def fracPart (s : Scanner) : Scan Scanner :=
  if s.byte? = some 0x2E then (s.advance 1).someDigits else .ok s

/-- The exponent of `number`, if there is one. -/
def expPart (s : Scanner) : Scan Scanner :=
  if s.byte? = some 0x65 ∨ s.byte? = some 0x45 then
    let s := s.advance 1
    let s := if s.byte? = some 0x2B ∨ s.byte? = some 0x2D then s.advance 1 else s
    s.someDigits
  else .ok s

def number (s : Scanner) : Scan Scanner := do
  let start := s.pos
  let s := if s.byte? = some 0x2D then s.advance 1 else s
  let s ← s.intPart
  let s ← s.fracPart
  let s ← s.expPart
  if start < s.pos then .ok s else .none

/-- Read the four hex digits after `\u`, leaving the position on the last one. -/
def hex4 (s : Scanner) : Scan (Nat × Scanner) := do
  let digits ← Scan.ofOption (slice s.text (s.pos + 1) (s.pos + 5))
  let value ← Scan.ofOption (u32FromStrRadix16 digits)
  return (value, s.advance 4)

/-- Whether the escape that was read is a high surrogate with another Unicode
escape behind it. -/
def pairs (s : Scanner) (hi : Nat) : Scan Bool :=
  if 0xD800 ≤ hi ∧ hi < 0xDC00 then s.startsWith (s.pos + 1) [0x5C, 0x75] else .ok false

/-- The `u` branch of `string`, from the `u` to the last digit. -/
def unicodeEscape (s : Scanner) : Scan (Char × Scanner) := do
  let (hi, s) ← s.hex4
  if ← s.pairs hi then
    let s := s.advance 2
    let (lo, s) ← s.hex4
    let c :=
      if 0xDC00 ≤ lo ∧ lo < 0xE000 then
        charFromU32 (0x10000 + ((hi - 0xD800) <<< 10) + (lo - 0xDC00))
      else none
    return (c.getD '\uFFFD', s)
  else return ((charFromU32 hi).getD '\uFFFD', s)

/-- One escape of `string`, from the character after the backslash to its last
character. -/
def escape (s : Scanner) : Scan (Char × Scanner) :=
  match s.byte? with
  | none => .none
  | some b =>
      if b = 0x75 then s.unicodeEscape
      else
        match escapeChar b with
        | some c => .ok (c, s)
        | none => .none

/-- The slow loop of `string`, for strings with escapes. -/
def escaped : Nat → Str → Scanner → Scan (Str × Scanner)
  | 0, _, _ => .fuel
  | fuel + 1, out, s =>
      match s.byte? with
      | none => .none
      | some b =>
          if b = 0x22 then .ok (out, s.advance 1)
          else if b = 0x5C then do
            let (c, s) ← (s.advance 1).escape
            escaped fuel (out ++ [c]) (s.advance 1)
          else if b < 0x20 then .none
          else do
            let rest ← Scan.expect (sliceFrom s.text s.pos)
            let c ← Scan.ofOption rest.head?
            escaped fuel (out ++ [c]) (s.advance c.utf8Size)

/-- Parse a JSON string starting at the opening quote. -/
def string (s : Scanner) : Scan (Str × Scanner) := do
  let s := s.advance 1
  let start := s.pos
  let (closed, pos) ← Scan.ofOption (plainFrom (s.bytes.drop s.pos) s.pos)
  let out ← Scan.expect (slice s.text start pos)
  let s := { s with pos }
  if closed then return (out, s.advance 1)
  else escaped (s.bytes.length - s.pos + 1) out s

/-- A gjson-style path such as `MediaSources.0.Path`. -/
def path (s : Scanner) : Str :=
  s.stack.foldl (fun out segment =>
    let out := if out = [] then out else out ++ ['.']
    match segment with
    | .index i => out ++ (toString i).toList
    | .key key =>
        out ++ key.flatMap fun c =>
          if c = '\\' || c = '.' || c = '*' || c = '?' then ['\\', c] else [c]) []

/-- Whether `value` keeps a string value. -/
def isAbsolute (value : Str) : Bool :=
  "http://".toList.isPrefixOf value || "https://".toList.isPrefixOf value

/-- The string branch of `value`. -/
def stringValue (s : Scanner) : Scan Scanner := do
  let start := s.pos
  let (value, s) ← s.string
  if isAbsolute value then
    return { s with found := s.found ++ [⟨start, s.pos, s.path, value⟩] }
  else return s

def push (s : Scanner) (segment : Segment) : Scanner :=
  { s with stack := s.stack ++ [segment] }

def pop (s : Scanner) : Scanner := { s with stack := s.stack.dropLast }

mutual
def value : Nat → Scanner → Scan Scanner
  | 0, _ => .fuel
  | fuel + 1, s =>
      if maxDepth < s.stack.length then .none
      else
        let s := s.skipWs
        match s.byte? with
        | none => .none
        | some b =>
            if b = 0x7B then object fuel s
            else if b = 0x5B then array fuel s
            else if b = 0x22 then s.stringValue
            else if b = 0x74 then s.literal (encode "true".toList)
            else if b = 0x66 then s.literal (encode "false".toList)
            else if b = 0x6E then s.literal (encode "null".toList)
            else if b = 0x2D || (0x30 ≤ b && b ≤ 0x39) then s.number
            else .none

def object : Nat → Scanner → Scan Scanner
  | 0, _ => .fuel
  | fuel + 1, s =>
      let s := (s.advance 1).skipWs
      if s.byte? = some 0x7D then .ok (s.advance 1) else members fuel s

/-- The loop of `object`. -/
def members : Nat → Scanner → Scan Scanner
  | 0, _ => .fuel
  | fuel + 1, s => do
      let s := s.skipWs
      if s.byte? ≠ some 0x22 then .none
      else
        let (key, s) ← s.string
        let s := s.skipWs
        if s.byte? ≠ some 0x3A then .none
        else
          let s ← value fuel ((s.advance 1).push (.key key))
          let s := s.pop.skipWs
          match s.byte? with
          | some b =>
              if b = 0x2C then members fuel (s.advance 1)
              else if b = 0x7D then .ok (s.advance 1)
              else .none
          | none => .none

def array : Nat → Scanner → Scan Scanner
  | 0, _ => .fuel
  | fuel + 1, s =>
      let s := (s.advance 1).skipWs
      if s.byte? = some 0x5D then .ok (s.advance 1) else elements fuel 0 s

/-- The loop of `array`. -/
def elements : Nat → Nat → Scanner → Scan Scanner
  | 0, _, _ => .fuel
  | fuel + 1, index, s => do
      let s ← value fuel (s.push (.index index))
      let s := s.pop.skipWs
      match s.byte? with
      | some b =>
          if b = 0x2C then elements fuel (index + 1) (s.advance 1)
          else if b = 0x5D then .ok (s.advance 1)
          else .none
      | none => .none
end

/-- A scanner at the start of a text. -/
def start (text : Str) : Scanner := ⟨text, 0, [], []⟩

/-- Calls and loop iterations come in pairs at most per octet, with a container
adding one more call. -/
def enoughFuel (text : Str) : Nat := 3 * (encode text).length + 3

/-- `scan` with its possible panics. -/
def run (text : Str) : Scan (List FoundString) := do
  let s ← value (enoughFuel text) (start text)
  let s := s.skipWs
  if s.pos ≠ s.bytes.length then .none else return s.found

end Scanner

/-- Validate `text` as JSON and return every string value (not object key) that
starts with `http://` or `https://`. -/
def scan (text : Str) : Option (List FoundString) :=
  match Scanner.run text with
  | .ok found => some found
  | _ => none

end Proxemby
