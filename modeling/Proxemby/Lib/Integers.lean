import Proxemby.Lib.Text

/-!
# Decimal integers

How integers of a bounded type are read from text, as `from_str` of Rust does it.
-/

namespace Text

/-- The number that decimal digits denote. -/
def readDigits (text : List Char) : Option Nat :=
  if text ≠ [] ∧ text.all Char.isDigit then some (Nat.ofDigitChars 10 text 0) else none

/-- An integer of at most `max`, with a plus sign or without. -/
def readUnsigned (max : Nat) (text : List Char) : Option Nat :=
  (readDigits ((stripPrefix ['+'] text).getD text)).filter (· ≤ max)

/-- An integer from `-(max + 1)` to `max`. -/
def readSigned (max : Nat) (text : List Char) : Option Int :=
  match text with
  | '-' :: digits => ((readDigits digits).filter (· ≤ max + 1)).map fun n => -(n : Int)
  | _ => (readUnsigned max text).map fun n => (n : Int)

/-- Rust's `u8::from_str`. -/
def readU8 (text : List Char) : Option Nat := readUnsigned 255 text

/-- Rust's `i64::from_str`. -/
def readI64 (text : List Char) : Option Int := readSigned 9223372036854775807 text

example : readU8 "+024".toList = some 24 := by decide

example : readI64 "-9223372036854775808".toList = some (-9223372036854775808) := by decide

example : readI64 "9223372036854775808".toList = none := by decide

end Text
