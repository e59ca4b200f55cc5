import Mathlib.Logic.Relation
import Proxemby.Rewrite.Document

/-!
# The calls of the scanner

Which calls and loop turns a scan is made of, and where each of them stands in the text.
No function or loop is entered twice at one position, so every chain of calls ends, and
the strings that are kept stand behind each other.
-/

namespace Proxemby

open Utf8 Rfc8259

/-- A position between two characters of a text. -/
def OnBoundary (text : Str) (pos : Nat) : Prop :=
  ∃ before after, text = before ++ after ∧ pos = (encode before).length

/-- A call of a scanning function, or a turn of one of its loops. -/
inductive Call where
  | scan (s : Scanner)
  | members (s : Scanner)
  | elements (index : Nat) (s : Scanner)
  | value (s : Scanner)
  | object (s : Scanner)
  | array (s : Scanner)
  | string (s : Scanner)
  | number (s : Scanner)
  | escaped (s : Scanner)
  | plain (s : Scanner)
  | skipWs (s : Scanner)
  | digits (s : Scanner)

namespace Call

/-- The scanner at the start of a call. -/
def scanner : Call → Scanner
  | .scan s | .members s | .elements _ s | .value s | .object s | .array s | .string s
  | .number s | .escaped s | .plain s | .skipWs s | .digits s => s

/-- The functions and loops, each behind those that enter it where they stand. -/
@[simp] def rank : Call → Nat
  | .scan _ => 0
  | .members _ => 1
  | .elements _ _ => 2
  | .value _ => 3
  | .object _ => 4
  | .array _ => 5
  | .string _ => 6
  | .number _ => 7
  | .escaped _ => 8
  | .plain _ => 9
  | .skipWs _ => 10
  | .digits _ => 11

/-- The character that a function expects where it starts. -/
def lead : Call → Option Char
  | .object _ => some '{'
  | .array _ => some '['
  | .string _ => some '"'
  | _ => none

/-- How many containers may be around a call. -/
def Shallow : Call → Prop
  | .value s => s.stack.length ≤ maxDepth + 1
  | .members s | .elements _ s | .object s | .array s => s.stack.length ≤ maxDepth
  | .scan s => s.stack = []
  | _ => True

end Call

open Scanner in
/-- The first call makes the second, or goes on with it as its next turn.  What happens in
between is given by what the scanning functions return. -/
inductive Makes : Call → Call → Prop where
  | scan_value {s : Scanner} : Makes (.scan s) (.value s)
  | scan_skipWs {s s₁ : Scanner} {fuel : Nat} (returned : value fuel s = .ok s₁) :
      Makes (.scan s) (.skipWs s₁)
  | value_skipWs {s : Scanner} (depth : s.stack.length ≤ maxDepth) :
      Makes (.value s) (.skipWs s)
  | value_object {s : Scanner} (depth : s.stack.length ≤ maxDepth)
      (next : s.skipWs.byte? = some 0x7B) : Makes (.value s) (.object s.skipWs)
  | value_array {s : Scanner} (depth : s.stack.length ≤ maxDepth)
      (next : s.skipWs.byte? = some 0x5B) : Makes (.value s) (.array s.skipWs)
  | value_string {s : Scanner} (depth : s.stack.length ≤ maxDepth)
      (next : s.skipWs.byte? = some 0x22) : Makes (.value s) (.string s.skipWs)
  | value_number {s : Scanner} {b : UInt8} (depth : s.stack.length ≤ maxDepth)
      (next : s.skipWs.byte? = some b) (lead : b = 0x2D ∨ (0x30 ≤ b ∧ b ≤ 0x39)) :
      Makes (.value s) (.number s.skipWs)
  | object_skipWs {s : Scanner} : Makes (.object s) (.skipWs (s.advance 1))
  | object_members {s : Scanner} (some : (s.advance 1).skipWs.byte? ≠ some 0x7D) :
      Makes (.object s) (.members (s.advance 1).skipWs)
  | members_skipWs {s : Scanner} : Makes (.members s) (.skipWs s)
  | members_string {s : Scanner} (next : s.skipWs.byte? = some 0x22) :
      Makes (.members s) (.string s.skipWs)
  | members_colon {s s₁ : Scanner} {key : Str} (next : s.skipWs.byte? = some 0x22)
      (named : s.skipWs.string = .ok (key, s₁)) : Makes (.members s) (.skipWs s₁)
  | members_value {s s₁ : Scanner} {key : Str} (next : s.skipWs.byte? = some 0x22)
      (named : s.skipWs.string = .ok (key, s₁)) (colon : s₁.skipWs.byte? = some 0x3A) :
      Makes (.members s) (.value ((s₁.skipWs.advance 1).push (.key key)))
  | members_end {s s₁ s₂ : Scanner} {key : Str} {fuel : Nat}
      (next : s.skipWs.byte? = some 0x22) (named : s.skipWs.string = .ok (key, s₁))
      (colon : s₁.skipWs.byte? = some 0x3A)
      (returned : value fuel ((s₁.skipWs.advance 1).push (.key key)) = .ok s₂) :
      Makes (.members s) (.skipWs s₂.pop)
  | members_members {s s₁ s₂ : Scanner} {key : Str} {fuel : Nat}
      (next : s.skipWs.byte? = some 0x22) (named : s.skipWs.string = .ok (key, s₁))
      (colon : s₁.skipWs.byte? = some 0x3A)
      (returned : value fuel ((s₁.skipWs.advance 1).push (.key key)) = .ok s₂)
      (comma : s₂.pop.skipWs.byte? = some 0x2C) :
      Makes (.members s) (.members (s₂.pop.skipWs.advance 1))
  | array_skipWs {s : Scanner} : Makes (.array s) (.skipWs (s.advance 1))
  | array_elements {s : Scanner} (some : (s.advance 1).skipWs.byte? ≠ some 0x5D) :
      Makes (.array s) (.elements 0 (s.advance 1).skipWs)
  | elements_value {index : Nat} {s : Scanner} :
      Makes (.elements index s) (.value (s.push (.index index)))
  | elements_end {index fuel : Nat} {s s₁ : Scanner}
      (returned : value fuel (s.push (.index index)) = .ok s₁) :
      Makes (.elements index s) (.skipWs s₁.pop)
  | elements_elements {index fuel : Nat} {s s₁ : Scanner}
      (returned : value fuel (s.push (.index index)) = .ok s₁)
      (comma : s₁.pop.skipWs.byte? = some 0x2C) :
      Makes (.elements index s) (.elements (index + 1) (s₁.pop.skipWs.advance 1))
  | string_plain {s : Scanner} : Makes (.string s) (.plain (s.advance 1))
  | string_escaped {s : Scanner} {pos : Nat}
      (stopped : plainFrom ((s.advance 1).bytes.drop (s.advance 1).pos) (s.advance 1).pos =
        some (false, pos)) : Makes (.string s) (.escaped { s.advance 1 with pos })
  | plain_plain {s : Scanner} {b : UInt8} (next : s.byte? = some b)
      (plain : b ≠ 0x22 ∧ b ≠ 0x5C ∧ ¬b < 0x20) : Makes (.plain s) (.plain (s.advance 1))
  | escaped_escape {s s₁ : Scanner} {c : Char} (next : s.byte? = some 0x5C)
      (escape : (s.advance 1).escape = .ok (c, s₁)) :
      Makes (.escaped s) (.escaped (s₁.advance 1))
  | escaped_char {s : Scanner} {b : UInt8} {c : Char} {tail : Str} (next : s.byte? = some b)
      (plain : b ≠ 0x22 ∧ b ≠ 0x5C ∧ ¬b < 0x20)
      (first : sliceFrom s.text s.pos = some (c :: tail)) :
      Makes (.escaped s) (.escaped (s.advance c.utf8Size))
  | number_int {s s₁ : Scanner}
      (signed : s₁ = if s.byte? = some 0x2D then s.advance 1 else s) :
      Makes (.number s) (.digits s₁)
  | number_frac {s s₁ s₂ : Scanner}
      (signed : s₁ = if s.byte? = some 0x2D then s.advance 1 else s)
      (int : s₁.intPart = .ok s₂) (point : s₂.byte? = some 0x2E) :
      Makes (.number s) (.digits (s₂.advance 1))
  | number_exp {s s₁ s₂ s₃ s₄ : Scanner}
      (signed : s₁ = if s.byte? = some 0x2D then s.advance 1 else s)
      (int : s₁.intPart = .ok s₂) (frac : s₂.fracPart = .ok s₃)
      (mark : s₃.byte? = some 0x65 ∨ s₃.byte? = some 0x45)
      (sign : s₄ = if (s₃.advance 1).byte? = some 0x2B ∨ (s₃.advance 1).byte? = some 0x2D then
        (s₃.advance 1).advance 1 else s₃.advance 1) :
      Makes (.number s) (.digits s₄)
  | skipWs_skipWs {s : Scanner} {b : UInt8} (next : s.byte? = some b)
      (ws : b = 0x20 ∨ b = 0x09 ∨ b = 0x0A ∨ b = 0x0D) :
      Makes (.skipWs s) (.skipWs (s.advance 1))
  | digits_digits {s : Scanner} {b : UInt8} (next : s.byte? = some b)
      (digit : 0x30 ≤ b ∧ b ≤ 0x39) : Makes (.digits s) (.digits (s.advance 1))

/-- The calls and turns of the scan of a text. -/
def Reaches (text : Str) : Call → Prop :=
  Relation.ReflTransGen Makes (.scan (Scanner.start text))

/-! ## Where a call stands -/

/-- A call between two halves of the text, in front of the character it expects. -/
structure Call.Stands (call : Call) (read rest : Str) : Prop where
  place : ∃ stack found, call.scanner = Scanner.between read rest stack found
  lead : ∀ c ∈ call.lead, ∃ tail, rest = c :: tail
  shallow : call.Shallow

/-- The second call stands behind the first, or belongs to a later function at its place. -/
def Lands (call : Call) (read rest : Str) (next : Call) : Prop :=
  ∃ word tail, rest = word ++ tail ∧ next.Stands (read ++ word) tail ∧
    (word = [] → call.rank < next.rank)

section Lands

open Scanner

variable {read rest : Str} {call next : Call}

/-- A call that expects no character stands anywhere. -/
theorem Call.Stands.free {stack : List Segment} {found : List FoundString}
    (place : call.scanner = between read rest stack found) (free : call.lead = none)
    (shallow : call.Shallow) : call.Stands read rest := by
  refine ⟨⟨stack, found, place⟩, ?_, shallow⟩
  rw [free]
  exact nofun

/-- White space in front of the character that the next function expects. -/
theorem skipWs_next {stack : List Segment} {found : List FoundString} (c : Char) {b : UInt8}
    (octet : c.toNat < 0x80 ∧ UInt8.ofNat c.toNat = b)
    (next : (between read rest stack found).skipWs.byte? = some b) :
    ∃ ws tail, rest = ws ++ c :: tail ∧
      (between read rest stack found).skipWs = between (read ++ ws) (c :: tail) stack found := by
  obtain ⟨ws, tail, rfl, -, skipped⟩ := skipWs_sound read rest stack found
  rw [skipped] at next ⊢
  obtain ⟨tail, rfl⟩ := (byte?_iff c octet).mp next
  exact ⟨ws, tail, rfl, rfl⟩

theorem scan_lands {s : Scanner} (stands : (Call.scan s).Stands read rest)
    (makes : Makes (.scan s) next) : Lands (.scan s) read rest next := by
  obtain ⟨⟨stack, found, rfl : s = _⟩, -, shallow⟩ := stands
  cases makes with
  | scan_value =>
      exact ⟨[], rest, rfl, .free (by simp; rfl) rfl (by simp_all [Call.Shallow]), by simp⟩
  | scan_skipWs returned =>
      obtain ⟨ws, pieces, document, tail, found', rfl, -, -, -, rfl⟩ := (sound _).1 returned
      exact ⟨ws ++ Piece.flat pieces, tail, by simp, .free (by simp; rfl) rfl trivial, by simp⟩

theorem value_lands {s : Scanner} (stands : (Call.value s).Stands read rest)
    (makes : Makes (.value s) next) : Lands (.value s) read rest next := by
  obtain ⟨⟨stack, found, rfl : s = _⟩, -, -⟩ := stands
  cases makes with
  | value_skipWs depth => exact ⟨[], rest, rfl, .free (by simp; rfl) rfl trivial, by simp⟩
  | value_object depth next =>
      obtain ⟨ws, tail, rfl, skipped⟩ := skipWs_next '{' (by decide) next
      rw [skipped]
      exact ⟨ws, _, rfl, ⟨⟨_, _, rfl⟩, by simp [Call.lead], depth⟩, by simp⟩
  | value_array depth next =>
      obtain ⟨ws, tail, rfl, skipped⟩ := skipWs_next '[' (by decide) next
      rw [skipped]
      exact ⟨ws, _, rfl, ⟨⟨_, _, rfl⟩, by simp [Call.lead], depth⟩, by simp⟩
  | value_string depth next =>
      obtain ⟨ws, tail, rfl, skipped⟩ := skipWs_next '"' (by decide) next
      rw [skipped]
      exact ⟨ws, _, rfl, ⟨⟨_, _, rfl⟩, by simp [Call.lead], trivial⟩, by simp⟩
  | value_number depth next lead =>
      obtain ⟨ws, tail, rfl, -, skipped⟩ := skipWs_sound read rest stack found
      rw [skipped]
      exact ⟨ws, tail, rfl, .free rfl rfl trivial, by simp⟩

theorem object_lands {s : Scanner} (stands : (Call.object s).Stands read rest)
    (makes : Makes (.object s) next) : Lands (.object s) read rest next := by
  obtain ⟨⟨stack, found, rfl : s = _⟩, lead, shallow⟩ := stands
  obtain ⟨tail, rfl⟩ := lead '{' rfl
  have step := @between_advance_one read tail stack found '{' (by decide)
  cases makes with
  | object_skipWs =>
      rw [step]
      exact ⟨['{'], tail, rfl, .free rfl rfl trivial, by simp⟩
  | object_members some =>
      obtain ⟨ws, tail, rfl, -, skipped⟩ := skipWs_sound (read ++ ['{']) tail stack found
      rw [step, skipped]
      exact ⟨'{' :: ws, tail, rfl, .free (by simp; rfl) rfl shallow, by simp⟩

theorem array_lands {s : Scanner} (stands : (Call.array s).Stands read rest)
    (makes : Makes (.array s) next) : Lands (.array s) read rest next := by
  obtain ⟨⟨stack, found, rfl : s = _⟩, lead, shallow⟩ := stands
  obtain ⟨tail, rfl⟩ := lead '[' rfl
  have step := @between_advance_one read tail stack found '[' (by decide)
  cases makes with
  | array_skipWs =>
      rw [step]
      exact ⟨['['], tail, rfl, .free rfl rfl trivial, by simp⟩
  | array_elements some =>
      obtain ⟨ws, tail, rfl, -, skipped⟩ := skipWs_sound (read ++ ['[']) tail stack found
      rw [step, skipped]
      exact ⟨'[' :: ws, tail, rfl, .free (by simp; rfl) rfl shallow, by simp⟩

theorem members_lands {s : Scanner} (stands : (Call.members s).Stands read rest)
    (makes : Makes (.members s) next) : Lands (.members s) read rest next := by
  obtain ⟨⟨stack, found, rfl : s = _⟩, -, shallow⟩ := stands
  -- What is read of a member, up to the end of its name, its colon and its value.
  have name {key : Str} {s₁ : Scanner}
      (quote : (between read rest stack found).skipWs.byte? = some 0x22)
      (named : (between read rest stack found).skipWs.string = .ok (key, s₁)) :
      ∃ word tail, rest = word ++ tail ∧ s₁ = between (read ++ word) tail stack found := by
    obtain ⟨ws, tail, rfl, skipped⟩ := skipWs_next '"' (by decide) quote
    rw [skipped] at named
    obtain ⟨src, tail, rfl, -, rfl⟩ := string_sound named
    exact ⟨ws ++ '"' :: src ++ ['"'], tail, by simp, by simp⟩
  have upToColon {key : Str} {s₁ : Scanner}
      (quote : (between read rest stack found).skipWs.byte? = some 0x22)
      (named : (between read rest stack found).skipWs.string = .ok (key, s₁))
      (colon : s₁.skipWs.byte? = some 0x3A) :
      ∃ word tail, rest = word ++ ':' :: tail ∧
        s₁.skipWs.advance 1 = between (read ++ word ++ [':']) tail stack found := by
    obtain ⟨word, tail, rfl, rfl⟩ := name quote named
    obtain ⟨ws, tail, rfl, skipped⟩ := skipWs_next ':' (by decide) colon
    rw [skipped, between_advance_one (by decide)]
    exact ⟨word ++ ws, tail, by simp, by simp⟩
  have upToValue {key : Str} {s₁ s₂ : Scanner} {fuel : Nat}
      (quote : (between read rest stack found).skipWs.byte? = some 0x22)
      (named : (between read rest stack found).skipWs.string = .ok (key, s₁))
      (colon : s₁.skipWs.byte? = some 0x3A)
      (returned : value fuel ((s₁.skipWs.advance 1).push (.key key)) = .ok s₂) :
      ∃ word tail found', rest = word ++ tail ∧ word ≠ [] ∧
        s₂.pop = between (read ++ word) tail stack found' := by
    obtain ⟨word, tail, rfl, advanced⟩ := upToColon quote named colon
    rw [advanced, between_push] at returned
    obtain ⟨ws, pieces, document, tail, found', rfl, -, -, -, rfl⟩ := (sound _).1 returned
    exact ⟨word ++ [':'] ++ ws ++ Piece.flat pieces, tail, found', by simp, by simp, by simp⟩
  cases makes with
  | members_skipWs => exact ⟨[], rest, rfl, .free (by simp; rfl) rfl trivial, by simp⟩
  | members_string quote =>
      obtain ⟨ws, tail, rfl, skipped⟩ := skipWs_next '"' (by decide) quote
      rw [skipped]
      exact ⟨ws, _, rfl, ⟨⟨_, _, rfl⟩, by simp [Call.lead], trivial⟩, by simp⟩
  | members_colon quote named =>
      obtain ⟨word, tail, rfl, rfl⟩ := name quote named
      exact ⟨word, tail, rfl, .free rfl rfl trivial, by simp⟩
  | members_value quote named colon =>
      obtain ⟨word, tail, rfl, advanced⟩ := upToColon quote named colon
      rw [advanced, between_push]
      refine ⟨word ++ [':'], tail, by simp, .free (by simp; rfl) rfl ?_, by simp⟩
      simpa [Call.Shallow] using shallow
  | members_end quote named colon returned =>
      obtain ⟨word, tail, found', rfl, -, popped⟩ := upToValue quote named colon returned
      rw [popped]
      exact ⟨word, tail, rfl, .free rfl rfl trivial, by simp⟩
  | members_members quote named colon returned comma =>
      obtain ⟨word, tail, found', rfl, -, popped⟩ := upToValue quote named colon returned
      rw [popped] at comma ⊢
      obtain ⟨ws, tail, rfl, skipped⟩ := skipWs_next ',' (by decide) comma
      rw [skipped, between_advance_one (by decide)]
      exact ⟨word ++ ws ++ [','], tail, by simp, .free (by simp; rfl) rfl shallow, by simp⟩

theorem elements_lands {index : Nat} {s : Scanner}
    (stands : (Call.elements index s).Stands read rest) (makes : Makes (.elements index s) next) :
    Lands (.elements index s) read rest next := by
  obtain ⟨⟨stack, found, rfl : s = _⟩, -, shallow⟩ := stands
  have upToValue {fuel : Nat} {s₁ : Scanner}
      (returned : value fuel ((between read rest stack found).push (.index index)) = .ok s₁) :
      ∃ word tail found', rest = word ++ tail ∧
        s₁.pop = between (read ++ word) tail stack found' := by
    rw [between_push] at returned
    obtain ⟨ws, pieces, document, tail, found', rfl, -, -, -, rfl⟩ := (sound _).1 returned
    exact ⟨ws ++ Piece.flat pieces, tail, found', by simp, by simp⟩
  cases makes with
  | elements_value =>
      refine ⟨[], rest, rfl, .free (by simp; rfl) rfl ?_, by simp⟩
      simpa [Call.Shallow] using shallow
  | elements_end returned =>
      obtain ⟨word, tail, found', rfl, popped⟩ := upToValue returned
      rw [popped]
      exact ⟨word, tail, rfl, .free rfl rfl trivial, by simp⟩
  | elements_elements returned comma =>
      obtain ⟨word, tail, found', rfl, popped⟩ := upToValue returned
      rw [popped] at comma ⊢
      obtain ⟨ws, tail, rfl, skipped⟩ := skipWs_next ',' (by decide) comma
      rw [skipped, between_advance_one (by decide)]
      exact ⟨word ++ ws ++ [','], tail, by simp, .free (by simp; rfl) rfl shallow, by simp⟩

theorem string_lands {s : Scanner} (stands : (Call.string s).Stands read rest)
    (makes : Makes (.string s) next) : Lands (.string s) read rest next := by
  obtain ⟨⟨stack, found, rfl : s = _⟩, lead, -⟩ := stands
  obtain ⟨tail, rfl⟩ := lead '"' rfl
  have step := @between_advance_one read tail stack found '"' (by decide)
  cases makes with
  | string_plain =>
      rw [step]
      exact ⟨['"'], tail, rfl, .free rfl rfl trivial, by simp⟩
  | string_escaped stopped =>
      rw [step, between_bytes, between_pos, List.drop_left] at stopped
      obtain ⟨plain, tail, rfl, -, rfl⟩ := plainFrom_sound stopped
      rw [step]
      exact ⟨'"' :: plain, '\\' :: tail, rfl,
        ⟨⟨stack, found, between_goto plain '\\'⟩, by simp [Call.lead], trivial⟩, by simp⟩

theorem escaped_lands {s : Scanner} (stands : (Call.escaped s).Stands read rest)
    (makes : Makes (.escaped s) next) : Lands (.escaped s) read rest next := by
  obtain ⟨⟨stack, found, rfl : s = _⟩, -, -⟩ := stands
  cases makes with
  | escaped_escape backslash escape =>
      obtain ⟨tail, rfl⟩ := (byte?_iff '\\' (by decide)).mp backslash
      rw [between_advance_one (by decide)] at escape
      obtain ⟨esc, tail, rfl, -, advanced⟩ := escape_sound escape
      rw [advanced]
      exact ⟨'\\' :: esc, tail, rfl, .free (by simp; rfl) rfl trivial, by simp⟩
  | @escaped_char _ _ c tail lead plain first =>
      rw [between_text, between_pos, sliceFrom_append, Option.some.injEq] at first
      subst first
      have step := @between_advance read tail stack found [c]
      rw [List.singleton_append, encode_cons, encode_nil, List.append_nil,
        String.length_utf8EncodeChar] at step
      rw [step]
      exact ⟨[c], tail, rfl, .free rfl rfl trivial, by simp⟩

/-- A loop that steps over an ASCII character. -/
theorem ascii_turn {stack : List Segment} {found : List FoundString} {b : UInt8}
    (octet : (between read rest stack found).byte? = some b) (ascii : b.toNat < 0x80) :
    ∃ c tail, rest = c :: tail ∧
      (between read rest stack found).advance 1 = between (read ++ [c]) tail stack found := by
  obtain ⟨c, tail, rfl, small, -⟩ := byte?_ascii ascii octet
  exact ⟨c, tail, rfl, between_advance_one small⟩

theorem skipWs_lands {s : Scanner} (stands : (Call.skipWs s).Stands read rest)
    (makes : Makes (.skipWs s) next) : Lands (.skipWs s) read rest next := by
  obtain ⟨⟨stack, found, rfl : s = _⟩, -, -⟩ := stands
  cases makes with
  | skipWs_skipWs octet ws =>
      obtain ⟨c, tail, rfl, step⟩ :=
        ascii_turn octet (by rcases ws with rfl | rfl | rfl | rfl <;> decide)
      rw [step]
      exact ⟨[c], tail, rfl, .free rfl rfl trivial, by simp⟩

theorem digits_lands {s : Scanner} (stands : (Call.digits s).Stands read rest)
    (makes : Makes (.digits s) next) : Lands (.digits s) read rest next := by
  obtain ⟨⟨stack, found, rfl : s = _⟩, -, -⟩ := stands
  cases makes with
  | digits_digits octet digit =>
      have ascii := Nat.lt_of_le_of_lt (UInt8.le_iff_toNat_le.mp digit.2) (by decide : 0x39 < 0x80)
      obtain ⟨c, tail, rfl, step⟩ := ascii_turn octet ascii
      rw [step]
      exact ⟨[c], tail, rfl, .free rfl rfl trivial, by simp⟩

theorem number_lands {s : Scanner} (stands : (Call.number s).Stands read rest)
    (makes : Makes (.number s) next) : Lands (.number s) read rest next := by
  obtain ⟨⟨stack, found, rfl : s = _⟩, -, -⟩ := stands
  obtain ⟨minus, tail, rfl, signed⟩ : ∃ minus tail, rest = minus ++ tail ∧
      (if (between read rest stack found).byte? = some 0x2D then
        (between read rest stack found).advance 1 else between read rest stack found) =
          between (read ++ minus) tail stack found := by
    split
    · next octet =>
        obtain ⟨c, tail, rfl, step⟩ := ascii_turn octet (by decide)
        exact ⟨[c], tail, rfl, step⟩
    · exact ⟨[], rest, rfl, by simp⟩
  cases makes with
  | number_int same =>
      rw [signed] at same
      subst same
      exact ⟨minus, tail, rfl, .free rfl rfl trivial, by simp⟩
  | number_frac same integer point =>
      rw [signed] at same
      subst same
      obtain ⟨int, tail, rfl, -, rfl⟩ := intPart_sound integer
      obtain ⟨tail, rfl⟩ := (byte?_iff '.' (by decide)).mp point
      rw [between_advance_one (by decide)]
      exact ⟨minus ++ int ++ ['.'], tail, by simp, .free (by simp; rfl) rfl trivial, by simp⟩
  | number_exp same integer fraction mark sign =>
      rw [signed] at same
      subst same
      obtain ⟨int, tail, rfl, -, rfl⟩ := intPart_sound integer
      obtain ⟨frac, tail, rfl, -, rfl⟩ := fracPart_sound fraction
      obtain ⟨e, tail, rfl, step⟩ : ∃ e tail', tail = e :: tail' ∧
          (between (read ++ minus ++ int ++ frac) tail stack found).advance 1 =
            between (read ++ minus ++ int ++ frac ++ [e]) tail' stack found := by
        rcases mark with octet | octet
        · exact ascii_turn octet (by decide)
        · exact ascii_turn octet (by decide)
      rw [step] at sign
      split at sign
      · next octet =>
          obtain ⟨c, tail, rfl, step⟩ : ∃ c tail', tail = c :: tail' ∧
              (between (read ++ minus ++ int ++ frac ++ [e]) tail stack found).advance 1 =
                between (read ++ minus ++ int ++ frac ++ [e] ++ [c]) tail' stack found := by
            rcases octet with octet | octet
            · exact ascii_turn octet (by decide)
            · exact ascii_turn octet (by decide)
          rw [sign, step]
          exact ⟨minus ++ int ++ frac ++ [e] ++ [c], tail, by simp,
            .free (by simp; rfl) rfl trivial, by simp⟩
      · rw [sign]
        exact ⟨minus ++ int ++ frac ++ [e], tail, by simp, .free (by simp; rfl) rfl trivial,
          by simp⟩

end Lands

/-! ## Every call of a scan -/

/-- The octet position of a call. -/
def Call.pos (call : Call) : Nat := call.scanner.pos

/-- A turn of the fast loop of `string`, which counts octets, is somewhere in the text; any
other call stands between two characters. -/
inductive Call.Placed (text : Str) : Call → Prop where
  | stands {call : Call} {read rest : Str} (whole : text = read ++ rest)
      (stands : call.Stands read rest) : Placed text call
  | plain {s : Scanner} (whole : s.text = text) (inside : s.pos ≤ (encode text).length) :
      Placed text (.plain s)

/-- The second call is at a later position, or belongs to a later function at the same one. -/
def Call.Before (call next : Call) : Prop :=
  call.pos < next.pos ∨ call.pos = next.pos ∧ call.rank < next.rank

theorem Call.Before.trans {first second third : Call} (left : first.Before second)
    (right : second.Before third) : first.Before third := by
  simp only [Call.Before] at *
  omega

section Step

variable {text read rest : Str} {call next : Call}

theorem Call.Stands.pos (stands : call.Stands read rest) : call.pos = (encode read).length := by
  obtain ⟨stack, found, same⟩ := stands.place
  rw [Call.pos, same, Scanner.between_pos]

theorem Lands.before (stands : call.Stands read rest) (lands : Lands call read rest next) :
    call.Before next := by
  obtain ⟨word, tail, -, later, rank⟩ := lands
  rw [Call.Before, stands.pos, later.pos, encode_append, List.length_append]
  by_cases empty : word = []
  · exact .inr ⟨by simp [empty], rank empty⟩
  · have some : 0 < (encode word).length := by
      rw [List.length_pos_iff, ne_eq, encode_eq_nil]
      exact empty
    exact .inl (by omega)

theorem Lands.placed (whole : text = read ++ rest) (lands : Lands call read rest next) :
    next.Placed text := by
  obtain ⟨word, tail, rfl, later, -⟩ := lands
  exact .stands (by rw [whole, List.append_assoc]) later

/-- Every call but a turn of the fast loop leads to calls that stand somewhere. -/
theorem Makes.lands (makes : Makes call next) (stands : call.Stands read rest)
    (other : ∀ s, call ≠ .plain s) : Lands call read rest next := by
  cases call with
  | scan s => exact scan_lands stands makes
  | members s => exact members_lands stands makes
  | elements index s => exact elements_lands stands makes
  | value s => exact value_lands stands makes
  | object s => exact object_lands stands makes
  | array s => exact array_lands stands makes
  | string s => exact string_lands stands makes
  | number s => exact number_lands stands makes
  | escaped s => exact escaped_lands stands makes
  | plain s => exact absurd rfl (other s)
  | skipWs s => exact skipWs_lands stands makes
  | digits s => exact digits_lands stands makes

/-- The fast loop steps over one octet that is there. -/
theorem plain_turn {s : Scanner} (whole : s.text = text) (makes : Makes (.plain s) next) :
    next.Placed text ∧ Call.Before (.plain s) next := by
  cases makes with
  | plain_plain octet plain =>
      have inside : s.pos < s.bytes.length := (List.getElem?_eq_some_iff.mp octet).1
      rw [Scanner.bytes, whole] at inside
      exact ⟨.plain whole inside, .inl (Nat.lt_succ_self s.pos)⟩

theorem Call.Placed.step (placed : call.Placed text) (makes : Makes call next) :
    next.Placed text ∧ call.Before next := by
  cases placed with
  | plain whole inside => exact plain_turn whole makes
  | @stands _ read rest whole stands =>
      by_cases fast : ∃ s, call = .plain s
      · obtain ⟨s, rfl⟩ := fast
        obtain ⟨stack, found, same : s = _⟩ := stands.place
        exact plain_turn (by rw [same, whole, Scanner.between_text]) makes
      · have lands := makes.lands stands fun s same => fast ⟨s, same⟩
        exact ⟨lands.placed whole, lands.before stands⟩

end Step

theorem Reaches.placed {text : Str} {call : Call} (reached : Reaches text call) :
    call.Placed text := by
  induction reached with
  | refl => exact @Call.Placed.stands text _ [] text rfl ⟨⟨[], [], rfl⟩, nofun, rfl⟩
  | tail _ makes ih => exact (ih.step makes).1

/-- A call comes before all that it leads to. -/
theorem Call.Placed.before {text : Str} {call next : Call} (placed : call.Placed text)
    (later : Relation.TransGen Makes call next) : call.Before next := by
  have both : next.Placed text ∧ call.Before next := by
    induction later with
    | single makes => exact placed.step makes
    | tail _ makes ih =>
        obtain ⟨there, before⟩ := ih.1.step makes
        exact ⟨there, ih.2.trans before⟩
  exact both.2

/-! ## The kept strings -/

/-- The kept strings of pieces are within the text, and each is in front of the next. -/
theorem keptFrom_spans (pieces : List Piece) (read : Str) :
    (∀ span ∈ Scanner.keptFrom (encode read).length pieces,
      OnBoundary (read ++ Piece.flat pieces) span.1 ∧
        OnBoundary (read ++ Piece.flat pieces) span.2.1 ∧
        (encode read).length ≤ span.1 ∧ span.1 < span.2.1) ∧
    (Scanner.keptFrom (encode read).length pieces).Pairwise fun left right =>
      left.2.1 ≤ right.1 := by
  induction pieces generalizing read with
  | nil => simp
  | cons piece pieces ih =>
      obtain ⟨spans, ordered⟩ := ih (read ++ piece.text)
      have whole : read ++ Piece.flat (piece :: pieces) =
          read ++ piece.text ++ Piece.flat pieces := by
        rw [Piece.flat_cons, List.append_assoc]
      rw [encode_append, List.length_append] at spans ordered
      rw [Scanner.keptFrom, whole]
      -- The span of the piece itself, when it is kept.
      have own : ∀ span ∈ Scanner.keptAt (encode read).length piece,
          span.1 = (encode read).length ∧
            span.2.1 = (encode read).length + (encode piece.text).length ∧
            0 < (encode piece.text).length := by
        intro span member
        cases piece with
        | raw text => cases member
        | string source value =>
            rw [Scanner.keptAt] at member
            split at member
            · rw [List.mem_singleton] at member
              subst member
              refine ⟨rfl, rfl, ?_⟩
              rw [List.length_pos_iff, ne_eq, encode_eq_nil]
              exact List.cons_ne_nil _ _
            · cases member
      refine ⟨?_, List.pairwise_append.mpr ⟨?_, ordered, ?_⟩⟩
      · intro span member
        rcases List.mem_append.mp member with here | later
        · obtain ⟨start, stop, some⟩ := own span here
          refine ⟨⟨read, piece.text ++ Piece.flat pieces, by simp, start⟩,
            ⟨read ++ piece.text, Piece.flat pieces, rfl, by simp [stop]⟩, by omega, by omega⟩
        · obtain ⟨start, stop, least, order⟩ := spans span later
          exact ⟨start, stop, by omega, order⟩
      · cases piece with
        | raw text => exact List.Pairwise.nil
        | string source value =>
            rw [Scanner.keptAt]
            split
            · exact List.pairwise_singleton _ _
            · exact List.Pairwise.nil
      · intro left here right later
        obtain ⟨-, stop, -⟩ := own left here
        have least := (spans right later).2.2.1
        omega

/-- The strings that a scan keeps. -/
theorem scan_spans {text : Str} {found : List FoundString} (accepted : scan text = some found) :
    (∀ item ∈ found, OnBoundary text item.start ∧ OnBoundary text item.stop ∧
      item.start < item.stop) ∧
    found.Pairwise fun left right => left.stop ≤ right.start := by
  obtain ⟨pieces, document, rfl, parsed, depth⟩ := scan_isSome_iff.mp (by rw [accepted]; rfl)
  obtain ⟨kept, ran, same⟩ := Scanner.run_complete parsed depth
  rw [scan, ran, Option.some.injEq] at accepted
  subst accepted
  obtain ⟨spans, ordered⟩ := keptFrom_spans pieces []
  rw [encode_nil, List.length_nil, ← same] at spans ordered
  constructor
  · intro item member
    obtain ⟨start, stop, -, order⟩ := spans item.span (List.mem_map_of_mem member)
    exact ⟨start, stop, order⟩
  · exact List.pairwise_map.mp ordered

/-- Scanning is safe on every text.  It answers without a panic; no call of a scan is past the
end of the text, every call but a turn of the octet-wise fast loop stands between two
characters, and values are at most 513 containers deep; a function or loop that is entered
again has moved on; the kept strings are within the text, one behind the other, and splicing
in their replacements does not panic. -/
theorem scan_safe (text : Str) :
    (Scanner.run text).Settled ∧
    (∀ call, Reaches text call → call.pos ≤ (encode text).length ∧
      ((∀ s, call ≠ .plain s) → OnBoundary text call.pos) ∧
      ∀ s, call = .value s → s.stack.length ≤ 513) ∧
    (∀ call next, Reaches text call → Relation.TransGen Makes call next →
      call.rank = next.rank → call.pos < next.pos) ∧
    (∀ found, scan text = some found →
      (∀ item ∈ found, OnBoundary text item.start ∧ OnBoundary text item.stop ∧
        item.start < item.stop) ∧
      found.Pairwise fun left right => left.stop ≤ right.start) ∧
    ∀ (rewriter : Rewriter) (toJson : Str → Str) (registry : Registry),
      (rewriter.rewritePlaybackInfo toJson registry (encode text)).isSome := by
  refine ⟨Scanner.run_settled text, ?_, ?_, fun found accepted => scan_spans accepted, ?_⟩
  · intro call reached
    cases reached.placed with
    | plain whole inside =>
        exact ⟨inside, fun other => absurd rfl (other _), nofun⟩
    | @stands _ read rest whole stands =>
        have boundary : OnBoundary text call.pos := ⟨read, rest, whole, stands.pos⟩
        refine ⟨?_, fun _ => boundary, ?_⟩
        · rw [stands.pos, whole, encode_append, List.length_append]
          exact Nat.le_add_right _ _
        · rintro s rfl
          exact stands.shallow
  · intro call next reached later same
    have before := reached.placed.before later
    rw [Call.Before, same] at before
    exact before.resolve_right fun equal => Nat.lt_irrefl _ equal.2
  · intro rewriter toJson registry
    exact rewriter.rewritePlaybackInfo_isSome toJson registry (encode text)

end Proxemby
