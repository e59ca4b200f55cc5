import Mathlib.Data.List.Basic
import Proxemby.Lib.Text

/-!
# The grammar of JSON texts

RFC 8259 as inductive relations between a text and the document it denotes.  A
text is presented as a list of pieces, the string values of the document apart
from what stands between them, so that an edit of the string values is an edit
of the pieces.  The relations are parameterised by the string literals they
admit: `Lit source value` says that `source` may stand between two quotation
marks for `value`.
-/

namespace Rfc8259

/-- Documents.  A number is its lexeme; members keep their order and may repeat
a key. -/
inductive Json where
  | null
  | bool (value : Bool)
  | number (lexeme : List Char)
  | string (value : List Char)
  | array (elements : List Json)
  | object (members : List (List Char × Json))

namespace Json

mutual
/-- The largest number of containers around one value of the document. -/
def enclosing : Json → Nat
  | .array elements => enclosingElements elements
  | .object members => enclosingMembers members
  | _ => 0

/-- `enclosing` for the elements of an array. -/
def enclosingElements : List Json → Nat
  | [] => 0
  | element :: rest => max (element.enclosing + 1) (enclosingElements rest)

/-- `enclosing` for the members of an object. -/
def enclosingMembers : List (List Char × Json) → Nat
  | [] => 0
  | (_, value) :: rest => max (value.enclosing + 1) (enclosingMembers rest)
end

mutual
/-- The document with every string value replaced; keys stay. -/
def mapStrings (edit : List Char → List Char) : Json → Json
  | .string value => .string (edit value)
  | .array elements => .array (mapElements edit elements)
  | .object members => .object (mapMembers edit members)
  | other => other

/-- `mapStrings` for the elements of an array. -/
def mapElements (edit : List Char → List Char) : List Json → List Json
  | [] => []
  | element :: rest => element.mapStrings edit :: mapElements edit rest

/-- `mapStrings` for the members of an object. -/
def mapMembers (edit : List Char → List Char) :
    List (List Char × Json) → List (List Char × Json)
  | [] => []
  | (key, value) :: rest => (key, value.mapStrings edit) :: mapMembers edit rest
end

mutual
/-- The string values of the document, in order. -/
def strings : Json → List (List Char)
  | .string value => [value]
  | .array elements => stringsElements elements
  | .object members => stringsMembers members
  | _ => []

/-- `strings` for the elements of an array. -/
def stringsElements : List Json → List (List Char)
  | [] => []
  | element :: rest => element.strings ++ stringsElements rest

/-- `strings` for the members of an object. -/
def stringsMembers : List (List Char × Json) → List (List Char)
  | [] => []
  | (_, value) :: rest => value.strings ++ stringsMembers rest
end

end Json

/-- A piece of a text: a string value with the source of its literal, or
anything else. -/
inductive Piece where
  | raw (text : List Char)
  | string (source value : List Char)
  deriving DecidableEq

namespace Piece

def text : Piece → List Char
  | .raw text => text
  | .string source _ => '"' :: source ++ ['"']

/-- The text of a list of pieces. -/
def flat (pieces : List Piece) : List Char := pieces.flatMap text

/-- The string values among the pieces. -/
def values (pieces : List Piece) : List (List Char) :=
  pieces.filterMap fun piece =>
    match piece with
    | .raw _ => none
    | .string _ value => some value

@[simp] theorem flat_nil : flat [] = [] := rfl

@[simp] theorem flat_cons (piece : Piece) (pieces : List Piece) :
    flat (piece :: pieces) = piece.text ++ flat pieces := rfl

@[simp] theorem flat_append (left right : List Piece) :
    flat (left ++ right) = flat left ++ flat right := by
  simp [flat]

@[simp] theorem text_raw (text : List Char) : (raw text).text = text := rfl

@[simp] theorem text_string (source value : List Char) :
    (string source value).text = '"' :: source ++ ['"'] := rfl

end Piece

/-! ## Lexical rules -/

/-- `ws = *( %x20 / %x09 / %x0A / %x0D )` -/
def isWs (c : Char) : Bool := c == ' ' || c == '\t' || c == '\n' || c == '\r'

def IsWs (text : List Char) : Prop := ∀ c ∈ text, isWs c = true

/-- `DIGIT` -/
def isDigit (c : Char) : Bool := '0' ≤ c && c ≤ '9'

/-- `1*DIGIT` -/
def IsDigits (text : List Char) : Prop := text ≠ [] ∧ ∀ c ∈ text, isDigit c = true

/-- `int = zero / ( digit1-9 *DIGIT )` -/
def IsInt (text : List Char) : Prop :=
  text = ['0'] ∨
    ∃ first rest, text = first :: rest ∧ isDigit first = true ∧ first ≠ '0' ∧
      ∀ c ∈ rest, isDigit c = true

/-- `[ frac ]` with `frac = decimal-point 1*DIGIT` -/
def IsFrac (text : List Char) : Prop :=
  text = [] ∨ ∃ digits, text = '.' :: digits ∧ IsDigits digits

/-- `[ exp ]` with `exp = e [ minus / plus ] 1*DIGIT` -/
def IsExp (text : List Char) : Prop :=
  text = [] ∨ ∃ e sign digits, text = e :: sign ++ digits ∧ (e = 'e' ∨ e = 'E') ∧
    (sign = [] ∨ sign = ['-'] ∨ sign = ['+']) ∧ IsDigits digits

/-- `number = [ minus ] int [ frac ] [ exp ]` -/
def IsNumber (text : List Char) : Prop :=
  ∃ minus int frac exp, text = minus ++ int ++ frac ++ exp ∧
    (minus = [] ∨ minus = ['-']) ∧ IsInt int ∧ IsFrac frac ∧ IsExp exp

/-- `unescaped = %x20-21 / %x23-5B / %x5D-10FFFF` -/
def IsUnescaped (c : Char) : Prop := 0x20 ≤ c.toNat ∧ c ≠ '"' ∧ c ≠ '\\'

/-- The character a two-character escape stands for. -/
def shortEscape : Char → Option Char
  | '"' => some '"'
  | '\\' => some '\\'
  | '/' => some '/'
  | 'b' => some '\x08'
  | 'f' => some '\x0C'
  | 'n' => some '\n'
  | 'r' => some '\r'
  | 't' => some '\t'
  | _ => none

/-- `HEXDIG`, in either case. -/
def hexValue (c : Char) : Option Nat :=
  if '0' ≤ c && c ≤ '9' then some (c.toNat - '0'.toNat)
  else if 'a' ≤ c && c ≤ 'f' then some (c.toNat - 'a'.toNat + 10)
  else if 'A' ≤ c && c ≤ 'F' then some (c.toNat - 'A'.toNat + 10)
  else none

/-- The value of a string of hexadecimal digits. -/
def hexNumber (digits : List Char) : Option Nat :=
  digits.foldlM (fun value c => (hexValue c).map (value * 16 + ·)) 0

/-- `4HEXDIG` -/
def IsHex4 (digits : List Char) : Prop :=
  digits.length = 4 ∧ (hexNumber digits).isSome

/-- `*char`, the contents of a string literal, where `Hex` are the texts that may
follow the `u` of a Unicode escape; the grammar's are `IsHex4`. -/
inductive Chars (Hex : List Char → Prop) : List Char → Prop
  | nil : Chars Hex []
  | unescaped {c : Char} {rest : List Char} :
      IsUnescaped c → Chars Hex rest → Chars Hex (c :: rest)
  | short {e : Char} {rest : List Char} :
      (shortEscape e).isSome → Chars Hex rest → Chars Hex ('\\' :: e :: rest)
  | unicode {digits rest : List Char} :
      Hex digits → Chars Hex rest → Chars Hex ('\\' :: 'u' :: digits ++ rest)

def isHighSurrogate (n : Nat) : Bool := 0xD800 ≤ n && n < 0xDC00

def isLowSurrogate (n : Nat) : Bool := 0xDC00 ≤ n && n < 0xE000

/-- The scalar value of a surrogate pair. -/
def pairValue (high low : Nat) : Nat :=
  0x10000 + (high - 0xD800) * 0x400 + (low - 0xDC00)

/-- The contents of a string literal and the string they denote, with every
surrogate escape in a pair. -/
inductive Denotes : List Char → List Char → Prop
  | nil : Denotes [] []
  | unescaped {c : Char} {rest value : List Char} :
      IsUnescaped c → Denotes rest value → Denotes (c :: rest) (c :: value)
  | short {e c : Char} {rest value : List Char} :
      shortEscape e = some c → Denotes rest value →
      Denotes ('\\' :: e :: rest) (c :: value)
  | unicode {digits rest value : List Char} {n : Nat} :
      digits.length = 4 → hexNumber digits = some n → n.isValidChar →
      Denotes rest value →
      Denotes ('\\' :: 'u' :: digits ++ rest) (Char.ofNat n :: value)
  | pair {first second rest value : List Char} {high low : Nat} :
      first.length = 4 → hexNumber first = some high → isHighSurrogate high →
      second.length = 4 → hexNumber second = some low → isLowSurrogate low →
      Denotes rest value →
      Denotes ('\\' :: 'u' :: first ++ '\\' :: 'u' :: second ++ rest)
        (Char.ofNat (pairValue high low) :: value)

/-! ## Values -/

mutual
/-- `value`, without the white space around it. -/
inductive Value (Lit : List Char → List Char → Prop) : List Piece → Json → Prop
  | null : Value Lit [.raw "null".toList] .null
  | true : Value Lit [.raw "true".toList] (.bool Bool.true)
  | false : Value Lit [.raw "false".toList] (.bool Bool.false)
  | number {lexeme : List Char} :
      IsNumber lexeme → Value Lit [.raw lexeme] (.number lexeme)
  | string {source value : List Char} :
      Lit source value → Value Lit [.string source value] (.string value)
  | emptyArray {ws : List Char} :
      IsWs ws → Value Lit [.raw ('[' :: ws ++ [']'])] (.array [])
  | array {pieces : List Piece} {elements : List Json} :
      Elements Lit pieces elements →
      Value Lit (.raw ['['] :: pieces ++ [.raw [']']]) (.array elements)
  | emptyObject {ws : List Char} :
      IsWs ws → Value Lit [.raw ('{' :: ws ++ ['}'])] (.object [])
  | object {pieces : List Piece} {members : List (List Char × Json)} :
      Members Lit pieces members →
      Value Lit (.raw ['{'] :: pieces ++ [.raw ['}']]) (.object members)

/-- `value *( value-separator value )`, with the white space around. -/
inductive Elements (Lit : List Char → List Char → Prop) :
    List Piece → List Json → Prop
  | one {before after : List Char} {pieces : List Piece} {value : Json} :
      IsWs before → Value Lit pieces value → IsWs after →
      Elements Lit (.raw before :: pieces ++ [.raw after]) [value]
  | cons {before after : List Char} {pieces rest : List Piece} {value : Json}
      {values : List Json} :
      IsWs before → Value Lit pieces value → IsWs after →
      Elements Lit rest values →
      Elements Lit (.raw before :: pieces ++ .raw (after ++ [',']) :: rest)
        (value :: values)

/-- `member *( value-separator member )`, with the white space around. -/
inductive Members (Lit : List Char → List Char → Prop) :
    List Piece → List (List Char × Json) → Prop
  | one {before key name middle colon after : List Char} {pieces : List Piece}
      {value : Json} :
      IsWs before → Lit key name → IsWs middle → IsWs colon →
      Value Lit pieces value → IsWs after →
      Members Lit
        (.raw (before ++ '"' :: key ++ '"' :: middle ++ ':' :: colon) :: pieces ++
          [.raw after])
        [(name, value)]
  | cons {before key name middle colon after : List Char} {pieces rest : List Piece}
      {value : Json} {members : List (List Char × Json)} :
      IsWs before → Lit key name → IsWs middle → IsWs colon →
      Value Lit pieces value → IsWs after → Members Lit rest members →
      Members Lit
        (.raw (before ++ '"' :: key ++ '"' :: middle ++ ':' :: colon) :: pieces ++
          .raw (after ++ [',']) :: rest)
        ((name, value) :: members)
end

/-- `JSON-text = ws value ws` -/
def JsonText (Lit : List Char → List Char → Prop) (pieces : List Piece)
    (document : Json) : Prop :=
  ∃ before inner after, IsWs before ∧ Value Lit inner document ∧ IsWs after ∧
    pieces = .raw before :: inner ++ [.raw after]

/-! ## Changing the literals -/

/-- Nothing outside the string literals contains a backslash. -/
theorem IsWs.plain {ws : List Char} (isWs : IsWs ws) : '\\' ∉ ws :=
  fun member => absurd (isWs _ member) (by decide)

theorem IsDigits.plain {digits : List Char} (isDigits : IsDigits digits) :
    '\\' ∉ digits :=
  fun member => absurd (isDigits.2 _ member) (by decide)

theorem IsNumber.plain {lexeme : List Char} (isNumber : IsNumber lexeme) :
    '\\' ∉ lexeme := by
  obtain ⟨minus, int, frac, exp, rfl, isMinus, isInt, isFrac, isExp⟩ := isNumber
  simp only [List.mem_append, not_or]
  refine ⟨⟨⟨?_, ?_⟩, ?_⟩, ?_⟩
  · rcases isMinus with rfl | rfl <;> decide
  · obtain rfl | ⟨first, rest, rfl, digit, -, all⟩ := isInt
    · decide
    · intro member
      rcases List.mem_cons.mp member with rfl | member
      · exact absurd digit (by decide)
      · exact absurd (all _ member) (by decide)
  · obtain rfl | ⟨digits, rfl, isDigits⟩ := isFrac
    · decide
    · simp [isDigits.plain]
  · obtain rfl | ⟨e, sign, digits, rfl, rfl | rfl, isSign, isDigits⟩ := isExp
    · decide
    · rcases isSign with rfl | rfl | rfl <;> simp [isDigits.plain]
    · rcases isSign with rfl | rfl | rfl <;> simp [isDigits.plain]

section Mono

variable {Lit Lit' : List Char → List Char → Prop}

mutual
/-- More literals, more values. -/
theorem Value.mono (wider : ∀ source value, Lit source value → Lit' source value)
    {pieces : List Piece} {document : Json} :
    Value Lit pieces document → Value Lit' pieces document
  | .null => .null
  | .true => .true
  | .false => .false
  | .number valid => .number valid
  | .string lit => .string (wider _ _ lit)
  | .emptyArray ws => .emptyArray ws
  | .array elements => .array (elements.mono wider)
  | .emptyObject ws => .emptyObject ws
  | .object members => .object (members.mono wider)

theorem Elements.mono (wider : ∀ source value, Lit source value → Lit' source value)
    {pieces : List Piece} {values : List Json} :
    Elements Lit pieces values → Elements Lit' pieces values
  | .one before value after => .one before (value.mono wider) after
  | .cons before value after rest =>
      .cons before (value.mono wider) after (rest.mono wider)

theorem Members.mono (wider : ∀ source value, Lit source value → Lit' source value)
    {pieces : List Piece} {members : List (List Char × Json)} :
    Members Lit pieces members → Members Lit' pieces members
  | .one before key middle colon value after =>
      .one before (wider _ _ key) middle colon (value.mono wider) after
  | .cons before key middle colon value after rest =>
      .cons before (wider _ _ key) middle colon (value.mono wider) after
        (rest.mono wider)
end

theorem JsonText.mono (wider : ∀ source value, Lit source value → Lit' source value)
    {pieces : List Piece} {document : Json} (parsed : JsonText Lit pieces document) :
    JsonText Lit' pieces document := by
  obtain ⟨before, inner, after, beforeWs, value, afterWs, rfl⟩ := parsed
  exact ⟨before, inner, after, beforeWs, value.mono wider, afterWs, rfl⟩

end Mono

/-! ## Reading the literals another way -/

/-- The same text, read as a document of the same shape. -/
def SameText (pieces pieces' : List Piece) (nesting nesting' : Nat) : Prop :=
  Piece.flat pieces' = Piece.flat pieces ∧ nesting' = nesting

section Thread

variable {Lit Lit' : List Char → List Char → Prop} {holds : List Char → Prop}
  (plain : ∀ text rest, '\\' ∉ text → holds (text ++ rest) → holds rest)
  (lit : ∀ source value rest, Lit source value → holds (source ++ rest) →
    (∃ value', Lit' source value') ∧ holds rest)

include plain lit

set_option linter.unusedSectionVars false

mutual
/-- Carry a property of the remaining text through a derivation, and read its
literals another way. -/
theorem Value.thread {pieces : List Piece} {document : Json} {rest : List Char} :
    Value Lit pieces document → holds (Piece.flat pieces ++ rest) →
      (∃ pieces' document', Value Lit' pieces' document' ∧
        SameText pieces pieces' document.enclosing document'.enclosing) ∧ holds rest
  | .null, before =>
      ⟨⟨_, _, .null, rfl, rfl⟩, plain "null".toList _ (by decide) (by simpa using before)⟩
  | .true, before =>
      ⟨⟨_, _, .true, rfl, rfl⟩, plain "true".toList _ (by decide) (by simpa using before)⟩
  | .false, before =>
      ⟨⟨_, _, .false, rfl, rfl⟩, plain "false".toList _ (by decide) (by simpa using before)⟩
  | .number isNumber, before =>
      ⟨⟨_, _, .number isNumber, rfl, rfl⟩,
        plain _ _ isNumber.plain (by simpa using before)⟩
  | .string isLit, before => by
      have opened := plain ['"'] _ (by decide) (by simpa using before)
      obtain ⟨⟨value', isLit'⟩, closed⟩ := lit _ _ _ isLit opened
      exact ⟨⟨_, _, .string isLit', rfl, rfl⟩, plain ['"'] _ (by decide) closed⟩
  | @Value.emptyArray _ ws isWs, before =>
      ⟨⟨_, _, .emptyArray isWs, rfl, rfl⟩,
        plain ('[' :: ws ++ [']']) _ (by simp [isWs.plain]) (by simpa using before)⟩
  | .array elements, before => by
      have opened := plain ['['] _ (by decide) (by simpa using before)
      obtain ⟨⟨pieces', values', elements', same, nesting⟩, closed⟩ :=
        elements.thread opened
      exact ⟨⟨_, _, .array elements', by simp [same], nesting⟩,
        plain [']'] _ (by decide) closed⟩
  | @Value.emptyObject _ ws isWs, before =>
      ⟨⟨_, _, .emptyObject isWs, rfl, rfl⟩,
        plain ('{' :: ws ++ ['}']) _ (by simp [isWs.plain]) (by simpa using before)⟩
  | .object members, before => by
      have opened := plain ['{'] _ (by decide) (by simpa using before)
      obtain ⟨⟨pieces', values', members', same, nesting⟩, closed⟩ := members.thread opened
      exact ⟨⟨_, _, .object members', by simp [same], nesting⟩,
        plain ['}'] _ (by decide) closed⟩

theorem Elements.thread {pieces : List Piece} {values : List Json} {rest : List Char} :
    Elements Lit pieces values → holds (Piece.flat pieces ++ rest) →
      (∃ pieces' values', Elements Lit' pieces' values' ∧
        SameText pieces pieces' (Json.enclosingElements values)
          (Json.enclosingElements values')) ∧ holds rest
  | @Elements.one _ ws ws' _ _ beforeWs value afterWs, before => by
      have first := plain ws _ beforeWs.plain (by simpa using before)
      obtain ⟨⟨pieces', document', value', same, nesting⟩, last⟩ := value.thread first
      exact ⟨⟨_, _, .one beforeWs value' afterWs, by simp [same],
        by simp [Json.enclosingElements, nesting]⟩, plain ws' _ afterWs.plain last⟩
  | @Elements.cons _ ws ws' _ _ _ _ beforeWs value afterWs others, before => by
      have first := plain ws _ beforeWs.plain (by simpa using before)
      obtain ⟨⟨pieces', document', value', same, nesting⟩, last⟩ := value.thread first
      have next := plain (ws' ++ [',']) _ (by simp [afterWs.plain]) (by simpa using last)
      obtain ⟨⟨_, _, others', same', nesting'⟩, done⟩ := others.thread next
      exact ⟨⟨_, _, .cons beforeWs value' afterWs others', by simp [same, same'],
        by simp [Json.enclosingElements, nesting, nesting']⟩, done⟩

theorem Members.thread {pieces : List Piece} {inner : List (List Char × Json)}
    {rest : List Char} :
    Members Lit pieces inner → holds (Piece.flat pieces ++ rest) →
      (∃ pieces' inner', Members Lit' pieces' inner' ∧
        SameText pieces pieces' (Json.enclosingMembers inner)
          (Json.enclosingMembers inner')) ∧ holds rest
  | @Members.one _ ws _ _ ws₁ ws₂ ws₃ _ _ beforeWs key middleWs
      colonWs value afterWs, before => by
      have opened := plain (ws ++ ['"']) _ (by simp [beforeWs.plain])
        (by simpa using before)
      obtain ⟨⟨name', key'⟩, closed⟩ := lit _ _ _ key opened
      have first := plain ('"' :: ws₁ ++ ':' :: ws₂) _
        (by simp [middleWs.plain, colonWs.plain]) (by simpa using closed)
      obtain ⟨⟨pieces', document', value', same, nesting⟩, last⟩ := value.thread first
      exact ⟨⟨_, _, .one beforeWs key' middleWs colonWs value' afterWs, by simp [same],
        by simp [Json.enclosingMembers, nesting]⟩, plain ws₃ _ afterWs.plain last⟩
  | @Members.cons _ ws _ _ ws₁ ws₂ ws₃ _ _ _ _ beforeWs key middleWs
      colonWs value afterWs others, before => by
      have opened := plain (ws ++ ['"']) _ (by simp [beforeWs.plain])
        (by simpa using before)
      obtain ⟨⟨name', key'⟩, closed⟩ := lit _ _ _ key opened
      have first := plain ('"' :: ws₁ ++ ':' :: ws₂) _
        (by simp [middleWs.plain, colonWs.plain]) (by simpa using closed)
      obtain ⟨⟨pieces', document', value', same, nesting⟩, last⟩ := value.thread first
      have next := plain (ws₃ ++ [',']) _ (by simp [afterWs.plain]) (by simpa using last)
      obtain ⟨⟨_, _, others', same', nesting'⟩, done⟩ := others.thread next
      exact ⟨⟨_, _, .cons beforeWs key' middleWs colonWs value' afterWs others',
        by simp [same, same'], by simp [Json.enclosingMembers, nesting, nesting']⟩, done⟩
end

/-- A text whose property passes its plain parts and its literals is a text with
the other literals, and what remains at its end has the property. -/
theorem JsonText.thread {pieces : List Piece} {document : Json}
    (parsed : JsonText Lit pieces document) (before : holds (Piece.flat pieces)) :
    (∃ pieces' document', JsonText Lit' pieces' document' ∧
      SameText pieces pieces' document.enclosing document'.enclosing) ∧ holds [] := by
  obtain ⟨ws, inner, ws', beforeWs, value, afterWs, rfl⟩ := parsed
  have first := plain ws _ beforeWs.plain (by simpa using before)
  obtain ⟨⟨pieces', document', value', same, nesting⟩, last⟩ := value.thread plain lit first
  exact ⟨⟨_, document', ⟨ws, pieces', ws', beforeWs, value', afterWs, rfl⟩, by simp [same],
    nesting⟩, plain ws' [] afterWs.plain (by simpa using last)⟩

end Thread

/-! ## Editing the string values -/

namespace Piece

/-- Replace the source and the value of a string. -/
def edit (source : List Char → List Char → List Char) (value : List Char → List Char) :
    Piece → Piece
  | .raw text => .raw text
  | .string src val => .string (source src val) (value val)

@[simp] theorem values_nil : values [] = [] := rfl

@[simp] theorem values_raw (text : List Char) (pieces : List Piece) :
    values (.raw text :: pieces) = values pieces := rfl

@[simp] theorem values_string (source value : List Char) (pieces : List Piece) :
    values (.string source value :: pieces) = value :: values pieces := rfl

@[simp] theorem values_append (left right : List Piece) :
    values (left ++ right) = values left ++ values right := by
  simp [values]

end Piece

section Edit

variable {Lit : List Char → List Char → Prop}

mutual
/-- The strings among the pieces are those of the document. -/
theorem Value.values {pieces : List Piece} {document : Json} :
    Value Lit pieces document → Piece.values pieces = document.strings
  | .null => rfl
  | .true => rfl
  | .false => rfl
  | .number _ => rfl
  | .string _ => rfl
  | .emptyArray _ => rfl
  | .array elements => by simp [Json.strings, elements.values]
  | .emptyObject _ => rfl
  | .object members => by simp [Json.strings, members.values]

theorem Elements.values {pieces : List Piece} {inner : List Json} :
    Elements Lit pieces inner → Piece.values pieces = Json.stringsElements inner
  | .one _ value _ => by simp [Json.stringsElements, value.values]
  | .cons _ value _ others => by simp [Json.stringsElements, value.values, others.values]

theorem Members.values {pieces : List Piece} {inner : List (List Char × Json)} :
    Members Lit pieces inner → Piece.values pieces = Json.stringsMembers inner
  | .one _ _ _ _ value _ => by simp [Json.stringsMembers, value.values]
  | .cons _ _ _ _ value _ others => by
      simp [Json.stringsMembers, value.values, others.values]
end

theorem JsonText.values {pieces : List Piece} {document : Json}
    (parsed : JsonText Lit pieces document) : Piece.values pieces = document.strings := by
  obtain ⟨before, inner, after, -, value, -, rfl⟩ := parsed
  simp [value.values]

variable {source : List Char → List Char → List Char} {value : List Char → List Char}
  (lit : ∀ src val, Lit src val → Lit (source src val) (value val))

include lit

set_option linter.unusedSectionVars false

mutual
/-- Editing the strings of a text edits those of its document. -/
theorem Value.edit {pieces : List Piece} {document : Json} :
    Value Lit pieces document →
      Value Lit (pieces.map (Piece.edit source value)) (document.mapStrings value)
  | .null => .null
  | .true => .true
  | .false => .false
  | .number isNumber => .number isNumber
  | .string isLit => .string (lit _ _ isLit)
  | .emptyArray isWs => .emptyArray isWs
  | .array elements => by
      simpa [Json.mapStrings, Piece.edit] using Value.array elements.edit
  | .emptyObject isWs => .emptyObject isWs
  | .object members => by
      simpa [Json.mapStrings, Piece.edit] using Value.object members.edit

theorem Elements.edit {pieces : List Piece} {inner : List Json} :
    Elements Lit pieces inner →
      Elements Lit (pieces.map (Piece.edit source value)) (Json.mapElements value inner)
  | .one before isValue after => by
      simpa [Json.mapElements, Piece.edit] using Elements.one before isValue.edit after
  | .cons before isValue after others => by
      simpa [Json.mapElements, Piece.edit] using
        Elements.cons before isValue.edit after others.edit

theorem Members.edit {pieces : List Piece} {inner : List (List Char × Json)} :
    Members Lit pieces inner →
      Members Lit (pieces.map (Piece.edit source value)) (Json.mapMembers value inner)
  | .one before key middle colon isValue after => by
      simpa [Json.mapMembers, Piece.edit] using
        Members.one before key middle colon isValue.edit after
  | .cons before key middle colon isValue after others => by
      simpa [Json.mapMembers, Piece.edit] using
        Members.cons before key middle colon isValue.edit after others.edit
end

theorem JsonText.edit {pieces : List Piece} {document : Json}
    (parsed : JsonText Lit pieces document) :
    JsonText Lit (pieces.map (Piece.edit source value)) (document.mapStrings value) := by
  obtain ⟨before, inner, after, beforeWs, isValue, afterWs, rfl⟩ := parsed
  exact ⟨before, _, after, beforeWs, isValue.edit lit, afterWs, by simp [Piece.edit]⟩

end Edit

/-! ## Writing string literals -/

/-- A hexadecimal digit. -/
def hexChar (n : Nat) : Char := if n < 10 then Char.ofNat (0x30 + n) else Char.ofNat (0x57 + n)

/-- The escape of one character, where it needs one. -/
def writeChar (c : Char) : List Char :=
  match c with
  | '"' => ['\\', '"']
  | '\\' => ['\\', '\\']
  | '\x08' => ['\\', 'b']
  | '\x0C' => ['\\', 'f']
  | '\n' => ['\\', 'n']
  | '\r' => ['\\', 'r']
  | '\t' => ['\\', 't']
  | c =>
      if c.toNat < 0x20 then
        ['\\', 'u', '0', '0', hexChar (c.toNat / 16), hexChar (c.toNat % 16)]
      else [c]

/-- The contents of a literal for a string, with no more escapes than needed. -/
def writeString (value : List Char) : List Char := value.flatMap writeChar

/-- The escapes of the control characters, checked one by one. -/
theorem writeChar_control {c : Char} (control : c.toNat < 0x20) :
    (∃ e ∈ ['b', 'f', 'n', 'r', 't'], writeChar c = ['\\', e] ∧ shortEscape e = some c) ∨
      (writeChar c = '\\' :: 'u' :: (writeChar c).drop 2 ∧
        ((writeChar c).drop 2).length = 4 ∧ hexNumber ((writeChar c).drop 2) = some c.toNat) := by
  have each : ∀ n < 0x20, (∃ e ∈ ['b', 'f', 'n', 'r', 't'],
        writeChar (Char.ofNat n) = ['\\', e] ∧ shortEscape e = some (Char.ofNat n)) ∨
      (writeChar (Char.ofNat n) = '\\' :: 'u' :: (writeChar (Char.ofNat n)).drop 2 ∧
        ((writeChar (Char.ofNat n)).drop 2).length = 4 ∧
        hexNumber ((writeChar (Char.ofNat n)).drop 2) = some (Char.ofNat n).toNat) := by
    decide
  have found := each c.toNat control
  rwa [Char.ofNat_toNat] at found

theorem denotes_writeString (value : List Char) : Denotes (writeString value) value := by
  induction value with
  | nil => exact .nil
  | cons c value ih =>
      rw [writeString, List.flatMap_cons]
      by_cases control : c.toNat < 0x20
      · obtain ⟨e, -, written, known⟩ | ⟨written, four, number⟩ := writeChar_control control
        · rw [written]
          exact .short known ih
        · have valid : c.toNat.isValidChar := Or.inl (by omega)
          have denotes := Denotes.unicode four number valid ih
          rw [Char.ofNat_toNat] at denotes
          rw [written]
          exact denotes
      · by_cases quote : c = '"'
        · subst quote
          exact .short rfl ih
        by_cases backslash : c = '\\'
        · subst backslash
          exact .short rfl ih
        have written : writeChar c = [c] := by
          unfold writeChar
          split
          all_goals first
            | exact absurd rfl quote
            | exact absurd rfl backslash
            | exact absurd (by decide) control
            | rw [if_neg control]
        rw [written]
        exact .unescaped ⟨Nat.le_of_not_lt control, quote, backslash⟩ ih

end Rfc8259
