import Proxemby.Lib.Numerals
import Proxemby.Lib.Text
import Proxemby.Lib.Utf8

/-!
# The framing of HTTP/1.1 messages

A message is a head of lines, an empty line and a body.  The first empty line ends the head,
whatever the body has in it.  The head of an answer begins with its status.
-/

namespace HttpMessage

open Text

/-- The end of a line. -/
def crlf : List UInt8 := [13, 10]

/-- The end of a head: that of its last line, and an empty line. -/
def blank : List UInt8 := [13, 10, 13, 10]

/-- A line of a head. -/
structure IsLine (line : List UInt8) : Prop where
  nonempty : line ≠ []
  noReturn : 13 ∉ line
  noFeed : 10 ∉ line

/-- The lines of a head with line ends in between. -/
def head : List (List UInt8) → List UInt8
  | [] => []
  | [line] => line
  | line :: lines => line ++ crlf ++ head lines

def message (lines : List (List UInt8)) (body : List UInt8) : List UInt8 :=
  head lines ++ blank ++ body

/-- Octets that no head ends with are skipped. -/
theorem splitOnceText_blank_append {line : List UInt8} (fresh : 13 ∉ line)
    (rest : List UInt8) :
    splitOnceText blank (line ++ rest) =
      (splitOnceText blank rest).map fun halves => (line ++ halves.1, halves.2) := by
  induction line with
  | nil => simp
  | cons b line ih =>
      obtain ⟨differ, later⟩ := not_or.mp (mt List.mem_cons.mpr fresh)
      have other : blank.isPrefixOf (b :: (line ++ rest)) = false := by
        simp [blank, List.isPrefixOf, differ]
      rw [List.cons_append, splitOnceText, other, if_neg Bool.false_ne_true, ih later,
        Option.map_map]
      rfl

/-- The head ends where it should. -/
theorem splitOnceText_message {lines : List (List UInt8)} (isLine : ∀ line ∈ lines, IsLine line)
    (body : List UInt8) : splitOnceText blank (message lines body) = some (head lines, body) := by
  have ends : splitOnceText blank (blank ++ body) = some ([], body) := by
    simp [blank, splitOnceText]
  have goes (lines : List (List UInt8)) : message lines body = head lines ++ (blank ++ body) :=
    List.append_assoc _ _ _
  rw [goes]
  induction lines with
  | nil => exact ends
  | cons line lines ih =>
      obtain ⟨here, later⟩ := List.forall_mem_cons.mp isLine
      cases lines with
      | nil =>
          rw [head, splitOnceText_blank_append here.noReturn, ends]
          simp
      | cons second lines =>
          have continues := ih later
          -- The second line shows that the first line end is not that of the head.
          obtain ⟨b, tail, starts⟩ : ∃ b tail, head (second :: lines) ++ (blank ++ body) =
              b :: tail ∧ b ≠ 13 := by
            have isLine := later second List.mem_cons_self
            obtain ⟨b, rest, rfl⟩ := List.exists_cons_of_ne_nil isLine.nonempty
            have differ : b ≠ 13 := by
              rintro rfl
              exact isLine.noReturn List.mem_cons_self
            cases lines with
            | nil => exact ⟨b, _, rfl, differ⟩
            | cons third lines => exact ⟨b, _, rfl, differ⟩
          obtain ⟨starts, differ⟩ := starts
          have skips : splitOnceText blank (crlf ++ b :: tail) =
              (splitOnceText blank (b :: tail)).map fun halves =>
                (crlf ++ halves.1, halves.2) := by
            simp [crlf, blank, splitOnceText, Ne.symm differ, Function.comp_def]
          have split : head (line :: second :: lines) ++ (blank ++ body) =
              line ++ (crlf ++ (head (second :: lines) ++ (blank ++ body))) := by
            simp [head]
          rw [split, splitOnceText_blank_append here.noReturn, starts, skips, ← starts, continues]
          simp [head]

/-! ## The first line -/

/-- The first line of a text, without its end. -/
def firstLine (text : List Char) : List Char :=
  match splitOnce '\n' text with
  | some (line, _) => if line.getLast? = some '\r' then line.dropLast else line
  | none => text

/-- A head is its first line, and what comes behind a line end. -/
theorem exists_decodeLossy_head {line : List Char} (ascii : ∀ c ∈ line, c.toNat < 0x80)
    (lines : List (List UInt8)) :
    ∃ rest, Utf8.decodeLossy (head (Utf8.encode line :: lines)) = line ++ rest ∧
      (rest = [] ∨ ∃ more, rest = '\r' :: '\n' :: more) := by
  cases lines with
  | nil =>
      refine ⟨[], ?_, .inl rfl⟩
      have decoded := Utf8.decodeLossy_append_ascii ascii []
      rwa [List.append_nil] at decoded
  | cons second lines =>
      have ends : Utf8.decodeLossy (crlf ++ head (second :: lines)) =
          '\r' :: '\n' :: Utf8.decodeLossy (head (second :: lines)) :=
        @Utf8.decodeLossy_append_ascii ['\r', '\n'] (by decide) _
      have decoded := Utf8.decodeLossy_append_ascii ascii (crlf ++ head (second :: lines))
      rw [ends, ← List.append_assoc] at decoded
      exact ⟨_, decoded, .inr ⟨_, rfl⟩⟩

theorem firstLine_append {line rest : List Char} (noFeed : '\n' ∉ line)
    (next : rest = [] ∨ ∃ more, rest = '\r' :: '\n' :: more) : firstLine (line ++ rest) = line := by
  rcases next with rfl | ⟨more, rfl⟩
  · rw [List.append_nil, firstLine, splitOnce_eq_none.mpr noFeed]
  · have cut : splitOnce '\n' (line ++ '\r' :: '\n' :: more) = some (line ++ ['\r'], more) := by
      have cut := @splitOnce_append _ _ '\n' (line ++ ['\r']) (by simp [noFeed]) more
      rwa [List.append_assoc] at cut
    rw [firstLine, cut]
    simp

/-! ## Answers -/

/-- Printable ASCII, and blanks. -/
def Visible (text : List Char) : Prop := ∀ c ∈ text, 0x20 ≤ c.toNat ∧ c.toNat < 0x7F

instance (text : List Char) : Decidable (Visible text) :=
  inferInstanceAs (Decidable (∀ c ∈ text, 0x20 ≤ c.toNat ∧ c.toNat < 0x7F))

def statusLine (status : Nat) (reason : List Char) : List Char :=
  "HTTP/1.1 ".toList ++ Nat.toDigits 10 status ++ ' ' :: reason

theorem statusLine_eq (status : Nat) (reason : List Char) : statusLine status reason =
    "HTTP/1.1 ".toList ++ (Nat.toDigits 10 status ++ ' ' :: reason) :=
  List.append_assoc _ _ _

/-- The octets of an answer of known length: a status line, lines of headers, an empty line and
the body as it is. -/
structure Framed (status : Nat) (reason : List Char) (body octets : List UInt8) : Prop where
  visible : Visible reason
  lines : ∃ lines, (∀ line ∈ lines, IsLine line) ∧
    octets = message (Utf8.encode (statusLine status reason) :: lines) body

theorem visible_statusLine (status : Nat) {reason : List Char} (visible : Visible reason) :
    Visible (statusLine status reason) := by
  have start : Visible "HTTP/1.1 ".toList := by decide
  have digits : Visible (Nat.toDigits 10 status) := by
    intro c member
    have digit := Nat.isDigit_of_mem_toDigits (by decide) (by decide) member
    have range := Numerals.isDigit_range digit
    omega
  rw [statusLine_eq]
  refine List.forall_mem_append.mpr ⟨start, List.forall_mem_append.mpr ⟨digits, ?_⟩⟩
  exact List.forall_mem_cons.mpr ⟨by decide, visible⟩

/-- A visible text is one line. -/
theorem isLine_encode {text : List Char} (visible : Visible text) (starts : text ≠ []) :
    IsLine (Utf8.encode text) := by
  have octets : ∀ b ∈ Utf8.encode text, 0x20 ≤ b.toNat := by
    intro b member
    obtain ⟨c, inside, octet⟩ := List.mem_flatMap.mp member
    have range := visible c inside
    rw [Utf8.encodeChar_ascii (by omega), List.mem_singleton] at octet
    rw [octet, UInt8.toNat_ofNat']
    omega
  refine ⟨by rwa [ne_eq, Utf8.encode_eq_nil], fun member => ?_, fun member => ?_⟩
  · exact absurd (octets 13 member) (by decide)
  · exact absurd (octets 10 member) (by decide)

/-- Three digits tell that an answer is good. -/
theorem isPrefixOf_statusLine {status : Nat} (code : status < 1000) (reason rest : List Char) :
    "HTTP/1.1 200".toList.isPrefixOf (statusLine status reason ++ rest) =
      decide (status = 200) := by
  have good : "HTTP/1.1 200".toList = "HTTP/1.1 ".toList ++ "200".toList := by decide
  rw [Bool.eq_iff_iff, List.isPrefixOf_iff_prefix, good, statusLine_eq, List.append_assoc,
    List.prefix_append_right_inj, decide_eq_true_iff, List.append_assoc]
  constructor
  · intro starts
    have short : (Nat.toDigits 10 status).length ≤ 3 :=
      (Nat.length_toDigits_le_iff (by decide) (by decide)).mpr code
    have digits : Nat.toDigits 10 status = "200".toList := by
      rcases Nat.lt_or_eq_of_le short with less | same
      · -- A shorter number would have a blank within the three characters.
        have blank : Nat.toDigits 10 status ++ [' '] <+: "200".toList := by
          refine List.prefix_of_prefix_length_le ⟨reason ++ rest, ?_⟩ starts ?_
          · rw [List.append_assoc]
            rfl
          · rw [List.length_append]
            exact less
        exact absurd (blank.subset (List.mem_append_right _ List.mem_cons_self)) (by decide)
      · have front := List.prefix_of_prefix_length_le (List.prefix_append _ _) starts short
        exact front.eq_of_length same
    have value := congrArg (Nat.ofDigitChars 10 · 0) digits
    rw [Nat.ofDigitChars_ten_toDigits] at value
    exact value.trans (by decide)
  · rintro rfl
    exact ⟨' ' :: (reason ++ rest), rfl⟩

/-- An answer is cut at the end of its head, which begins with the status line. -/
theorem Framed.split {status : Nat} {reason : List Char} {body octets : List UInt8}
    (framed : Framed status reason body octets) :
    ∃ head rest, splitOnceText blank octets = some (head, body) ∧
      Utf8.decodeLossy head = statusLine status reason ++ rest ∧
      firstLine (statusLine status reason ++ rest) = statusLine status reason := by
  obtain ⟨lines, isLine, rfl⟩ := framed.lines
  have visible := visible_statusLine status framed.visible
  have ascii : ∀ c ∈ statusLine status reason, c.toNat < 0x80 := by
    intro c member
    have range := visible c member
    omega
  have noFeed : '\n' ∉ statusLine status reason := fun member =>
    absurd (visible _ member).1 (by decide)
  obtain ⟨rest, decoded, next⟩ := exists_decodeLossy_head ascii lines
  have all := List.forall_mem_cons.mpr
    ⟨isLine_encode visible (List.cons_ne_nil _ _), isLine⟩
  exact ⟨_, rest, splitOnceText_message all body, decoded, firstLine_append noFeed next⟩

end HttpMessage
