import Proxemby.Rewrite.Cursor

/-!
# String literals as the scanner reads them

The literals of the scanner differ from those of RFC 8259 in one place: a
Unicode escape may begin with a plus sign.  `LitChars` describes them together
with the string the scanner takes them for, which is the string they denote
wherever their surrogate escapes are paired.
-/

namespace Proxemby

open Utf8 Rfc8259

/-! ## The digits of a Unicode escape -/

/-- What the scanner takes for the four digits of a Unicode escape. -/
def LooseHex (digits : Str) : Prop :=
  IsHex4 digits ∨
    ∃ rest, digits = '+' :: rest ∧ rest.length = 3 ∧ (hexNumber rest).isSome

theorem hexValue_eq_some {c : Char} {digit : Nat} (found : hexValue c = some digit) :
    c.toNat < 0x80 ∧ digit < 16 := by
  have bounds : ∀ low high : Char, (low ≤ c && c ≤ high) = true →
      low.toNat ≤ c.toNat ∧ c.toNat ≤ high.toNat := by
    intro low high range
    simp only [Bool.and_eq_true, decide_eq_true_eq, Char.le_def] at range
    exact ⟨UInt32.le_iff_toNat_le.mp range.1, UInt32.le_iff_toNat_le.mp range.2⟩
  simp only [hexValue] at found
  split at found
  · next range =>
      have := bounds '0' '9' range
      simp only [Option.some.injEq, Char.reduceToNat] at found this
      omega
  · split at found
    · next range =>
        have := bounds 'a' 'f' range
        simp only [Option.some.injEq, Char.reduceToNat] at found this
        omega
    · split at found
      · next range =>
          have := bounds 'A' 'F' range
          simp only [Option.some.injEq, Char.reduceToNat] at found this
          omega
      · simp at found

/-- Few digits do not overflow, so the check of the standard library is idle. -/
theorem foldlM_hex (digits : Str) :
    ∀ value, (value + 1) * 16 ^ digits.length ≤ 2 ^ 32 →
      digits.foldlM (fun value c => do
          let digit ← hexDigitValue c
          if value * 16 + digit < 2 ^ 32 then some (value * 16 + digit) else none) value =
        digits.foldlM (fun value c => (hexValue c).map (value * 16 + ·)) value := by
  induction digits with
  | nil => intro value _; rfl
  | cons c digits ih =>
      intro value fits
      rw [List.foldlM_cons, List.foldlM_cons]
      cases found : hexValue c with
      | none =>
          have found' : hexDigitValue c = none := found
          simp [found']
      | some digit =>
          have found' : hexDigitValue c = some digit := found
          have small := (hexValue_eq_some found).2
          rw [List.length_cons, Nat.pow_succ, Nat.mul_comm _ 16, ← Nat.mul_assoc] at fits
          have next : (value * 16 + digit + 1) * 16 ^ digits.length ≤ 2 ^ 32 :=
            Nat.le_trans (Nat.mul_le_mul_right _ (by omega)) fits
          have positive : 0 < 16 ^ digits.length := Nat.pow_pos (by decide)
          have below : value * 16 + digit < 2 ^ 32 := by
            have := Nat.le_mul_of_pos_right (value * 16 + digit + 1) positive
            omega
          simp only [found', Option.bind_eq_bind, Option.bind_some, below, ↓reduceIte,
            Option.map_some]
          exact ih _ next

/-- `u32::from_str_radix` on at most four characters. -/
theorem u32FromStrRadix16_eq {digits : Str} (some : stripPlus digits ≠ [])
    (few : (stripPlus digits).length ≤ 4) :
    u32FromStrRadix16 digits = hexNumber (stripPlus digits) := by
  have fits : (0 + 1) * 16 ^ (stripPlus digits).length ≤ 2 ^ 32 := by
    have := Nat.pow_le_pow_right (n := 16) (by decide) few
    omega
  rw [u32FromStrRadix16, if_neg some, foldlM_hex _ 0 fits, hexNumber]

theorem u32FromStrRadix16_eq_some {digits : Str} (four : digits.length = 4) {n : Nat} :
    u32FromStrRadix16 digits = some n ↔
      hexNumber digits = some n ∨
        ∃ rest, digits = '+' :: rest ∧ rest.length = 3 ∧ hexNumber rest = some n := by
  obtain ⟨c, rest, rfl⟩ := List.exists_cons_of_length_eq_add_one four
  have three : rest.length = 3 := by simpa using four
  by_cases plus : c = '+'
  · subst plus
    obtain ⟨d, rest, rfl⟩ := List.exists_cons_of_length_eq_add_one three
    have stripped : stripPlus ('+' :: d :: rest) = d :: rest := rfl
    have noSign : hexNumber ('+' :: d :: rest) = none := rfl
    rw [u32FromStrRadix16_eq (by simp [stripped]) (by rw [stripped]; omega), stripped, noSign]
    simp [three]
  · rw [u32FromStrRadix16_eq (by simp [stripPlus_of_ne plus])
      (by rw [stripPlus_of_ne plus]; omega), stripPlus_of_ne plus]
    simp [plus]

theorem looseHex_iff {digits : Str} :
    LooseHex digits ↔ digits.length = 4 ∧ ∃ n, u32FromStrRadix16 digits = some n := by
  constructor
  · rintro (⟨four, number⟩ | ⟨rest, rfl, three, number⟩)
    · obtain ⟨n, number⟩ := Option.isSome_iff_exists.mp number
      exact ⟨four, n, (u32FromStrRadix16_eq_some four).mpr (.inl number)⟩
    · obtain ⟨n, number⟩ := Option.isSome_iff_exists.mp number
      have four : ('+' :: rest).length = 4 := by simp [three]
      exact ⟨four, n, (u32FromStrRadix16_eq_some four).mpr (.inr ⟨rest, rfl, three, number⟩)⟩
  · rintro ⟨four, n, number⟩
    obtain number | ⟨rest, rfl, three, number⟩ := (u32FromStrRadix16_eq_some four).mp number
    · exact .inl ⟨four, by simp [number]⟩
    · exact .inr ⟨rest, rfl, three, by simp [number]⟩

/-- Every character of a hexadecimal number is a digit. -/
theorem hexNumber_digits {digits : Str} {n : Nat} (number : hexNumber digits = some n) :
    ∀ c ∈ digits, (hexValue c).isSome := by
  have fold : ∀ (digits : Str) (value : Nat),
      (digits.foldlM (fun value c => (hexValue c).map (value * 16 + ·)) value).isSome →
        ∀ c ∈ digits, (hexValue c).isSome := by
    intro digits
    induction digits with
    | nil => simp
    | cons d digits ih =>
        intro value read
        cases found : hexValue d with
        | none => simp [List.foldlM_cons, found] at read
        | some digit =>
            simp only [List.foldlM_cons, found, Option.map_some, Option.bind_eq_bind,
              Option.bind_some] at read
            simpa [found] using ih _ read
  exact fold digits 0 (by rw [hexNumber] at number; rw [number]; rfl)

theorem u32FromStrRadix16_ascii {digits : Str} {n : Nat}
    (number : u32FromStrRadix16 digits = some n) : ∀ c ∈ digits, c.toNat < 0x80 := by
  have fold : ∀ (digits : Str) (value : Nat),
      (digits.foldlM (fun value c => do
        let digit ← hexDigitValue c
        if value * 16 + digit < 2 ^ 32 then some (value * 16 + digit) else none)
          value).isSome → ∀ c ∈ digits, c.toNat < 0x80 := by
    intro digits
    induction digits with
    | nil => simp
    | cons d digits ih =>
        intro value read
        cases found : hexDigitValue d with
        | none => simp [List.foldlM_cons, found] at read
        | some digit =>
            simp only [List.foldlM_cons, found, Option.bind_eq_bind, Option.bind_some] at read
            split at read
            · have ascii := (hexValue_eq_some (c := d) found).1
              simpa [ascii] using ih _ read
            · simp at read
  simp only [u32FromStrRadix16, Option.ite_none_left_eq_some] at number
  have stripped : ∀ c ∈ stripPlus digits, c.toNat < 0x80 :=
    fold (stripPlus digits) 0 (by rw [number.2]; rfl)
  unfold stripPlus at stripped
  split at stripped
  · simpa using stripped
  · exact stripped

/-! ## Escapes -/

/-- What stands for a pair of escapes of which the first is a high surrogate. -/
def pairChar (high low : Nat) : Char :=
  (if isLowSurrogate low then charFromU32 (pairValue high low) else none).getD '\uFFFD'

/-- An escape without its backslash, followed by `rest`, and the character the
scanner takes it for. -/
inductive Escape : Str → Str → Char → Prop
  | short {e c : Char} {rest : Str} : shortEscape e = some c → Escape [e] rest c
  | single {digits rest : Str} {n : Nat} :
      digits.length = 4 → u32FromStrRadix16 digits = some n →
      ¬(isHighSurrogate n ∧ ['\\', 'u'] <+: rest) →
      Escape ('u' :: digits) rest ((charFromU32 n).getD '\uFFFD')
  | pair {first second rest : Str} {high low : Nat} :
      first.length = 4 → u32FromStrRadix16 first = some high → isHighSurrogate high →
      second.length = 4 → u32FromStrRadix16 second = some low →
      Escape ('u' :: first ++ '\\' :: 'u' :: second) rest (pairChar high low)

/-- The lookahead of an escape ends with its literal. -/
theorem lookahead_iff (rest tail : Str) :
    ['\\', 'u'] <+: rest ++ '"' :: tail ↔ ['\\', 'u'] <+: rest := by
  match rest with
  | [] => simp
  | [c] => simp
  | c :: d :: rest => simp

/-- An escape is the same whether its lookahead ends with the literal or not. -/
theorem Escape.narrow {esc rest tail : Str} {c : Char}
    (escape : Escape esc (rest ++ '"' :: tail) c) : Escape esc rest c := by
  cases escape with
  | short known => exact .short known
  | single four number alone =>
      rw [lookahead_iff] at alone
      exact .single four number alone
  | pair four number surrogate four' number' =>
      exact .pair four number surrogate four' number'

theorem Escape.widen {esc rest tail : Str} {c : Char} (escape : Escape esc rest c) :
    Escape esc (rest ++ '"' :: tail) c := by
  cases escape with
  | short known => exact .short known
  | single four number alone =>
      rw [← lookahead_iff rest tail] at alone
      exact .single four number alone
  | pair four number surrogate four' number' =>
      exact .pair four number surrogate four' number'

/-- The contents of a string literal and the string the scanner takes them for. -/
inductive LitChars : Str → Str → Prop
  | nil : LitChars [] []
  | unescaped {c : Char} {rest value : Str} :
      IsUnescaped c → LitChars rest value → LitChars (c :: rest) (c :: value)
  | escape {esc rest value : Str} {c : Char} :
      Escape esc rest c → LitChars rest value →
      LitChars ('\\' :: esc ++ rest) (c :: value)

theorem LitChars.append_plain {plain src value : Str} (all : ∀ c ∈ plain, IsUnescaped c)
    (lit : LitChars src value) : LitChars (plain ++ src) (plain ++ value) := by
  induction plain with
  | nil => exact lit
  | cons c plain ih =>
      simp only [List.mem_cons, forall_eq_or_imp] at all
      exact .unescaped all.1 (ih all.2)

theorem LitChars.plain {plain : Str} (all : ∀ c ∈ plain, IsUnescaped c) :
    LitChars plain plain := by
  simpa using LitChars.nil.append_plain all

/-- A literal is plain, or plain up to its first escape. -/
theorem LitChars.split {src value : Str} (lit : LitChars src value) :
    (value = src ∧ ∀ c ∈ src, IsUnescaped c) ∨
      ∃ plain src' value', src = plain ++ '\\' :: src' ∧ value = plain ++ value' ∧
        (∀ c ∈ plain, IsUnescaped c) ∧ LitChars ('\\' :: src') value' := by
  induction lit with
  | nil => exact .inl ⟨rfl, by simp⟩
  | @unescaped c rest value isPlain _ ih =>
      rcases ih with ⟨rfl, all⟩ | ⟨plain, src', value', rfl, rfl, all, lit⟩
      · exact .inl ⟨rfl, by simpa using ⟨isPlain, all⟩⟩
      · exact .inr ⟨c :: plain, src', value', rfl, rfl, by simpa using ⟨isPlain, all⟩, lit⟩
  | @escape esc rest value c isEscape lit _ =>
      exact .inr ⟨[], esc ++ rest, c :: value, rfl, rfl, by simp, .escape isEscape lit⟩

namespace Scanner

variable {read rest : Str} {stack : List Segment} {found : List FoundString}

theorem hex4_sound {n : Nat} {s : Scanner}
    (accepted : (between read ('u' :: rest) stack found).hex4 = .ok (n, s)) :
    ∃ digits tail, rest = digits ++ tail ∧ digits.length = 4 ∧
      u32FromStrRadix16 digits = some n ∧
      s = (between read ('u' :: rest) stack found).advance 4 := by
  simp only [hex4, Scan.bind_eq_ok, Scan.ofOption_eq_ok, Scan.pure_eq, Scan.ok.injEq,
    Prod.mk.injEq] at accepted
  obtain ⟨digits, sliced, _, number, rfl, rfl⟩ := accepted
  have begin' : (encode (read ++ ['u'])).length = (encode read).length + 1 := by
    rw [encode_append, List.length_append]
    rfl
  rw [between_text, between_pos, show read ++ 'u' :: rest = read ++ ['u'] ++ rest by simp,
    ← begin', show (encode read).length + 5 = (encode (read ++ ['u'])).length + 4 by omega]
    at sliced
  obtain ⟨tail, rfl, four⟩ := slice_eq_some sliced
  rw [length_encode_ascii (u32FromStrRadix16_ascii number)] at four
  exact ⟨digits, tail, rfl, four.symm, number, rfl⟩

theorem hex4_complete {digits : Str} {n : Nat} (four : digits.length = 4)
    (number : u32FromStrRadix16 digits = some n) :
    (between read ('u' :: (digits ++ rest)) stack found).hex4 =
      .ok (n, (between read ('u' :: (digits ++ rest)) stack found).advance 4) := by
  have begin' : (encode (read ++ ['u'])).length = (encode read).length + 1 := by
    rw [encode_append, List.length_append]
    rfl
  have octets : (encode digits).length = 4 := by
    rw [length_encode_ascii (u32FromStrRadix16_ascii number), four]
  have sliced := slice_append (read ++ ['u']) digits rest
  rw [begin', octets, List.append_assoc, List.singleton_append, Nat.add_assoc] at sliced
  simp [hex4, sliced, number, Scan.ofOption]

/-- The position after the last digit. -/
theorem advance_digits {digits : Str} {n : Nat} (four : digits.length = 4)
    (number : u32FromStrRadix16 digits = some n) :
    (between read ('u' :: (digits ++ rest)) stack found).advance 5 =
      between (read ++ 'u' :: digits) rest stack found := by
  have octets : (encode ('u' :: digits)).length = 5 := by
    rw [encode_cons, List.length_append,
      length_encode_ascii (u32FromStrRadix16_ascii number), four]
    rfl
  rw [← @between_advance _ rest _ _ ('u' :: digits), octets]
  rfl

/-- The lookahead behind the digits of an escape. -/
theorem pairs_eq {digits : Str} {n high : Nat} (four : digits.length = 4)
    (number : u32FromStrRadix16 digits = some n) :
    ((between read ('u' :: (digits ++ rest)) stack found).advance 4).pairs high =
      .ok (isHighSurrogate high && ['\\', 'u'].isPrefixOf rest) := by
  have next := congrArg Scanner.pos (@advance_digits read rest stack found _ _ four number)
  have sameText : read ++ 'u' :: (digits ++ rest) = read ++ 'u' :: digits ++ rest := by simp
  have ahead := @between_startsWith (read ++ 'u' :: digits) rest (['\\', 'u']) stack found
      (by decide)
  simp only [pairs, isHighSurrogate]
  by_cases surrogate : 0xD800 ≤ high ∧ high < 0xDC00
  · rw [if_pos surrogate]
    simp only [surrogate, decide_true, Bool.and_self, Bool.true_and]
    rw [← ahead, ← @between_pos _ rest stack found, ← next]
    simp only [startsWith, bytes, advance, between_text, sameText]
    rfl
  · rw [if_neg surrogate]
    rw [not_and_or] at surrogate
    rcases surrogate with low | large
    · simp [low]
    · simp [large]

/-- Pass the backslash and reach the `u` of a second escape. -/
theorem advance_second {digits : Str} {n : Nat} (four : digits.length = 4)
    (number : u32FromStrRadix16 digits = some n) :
    ((between read ('u' :: (digits ++ '\\' :: 'u' :: rest)) stack found).advance 4).advance 2 =
      between (read ++ 'u' :: digits ++ ['\\']) ('u' :: rest) stack found := by
  rw [advance_advance, show 4 + 2 = 5 + 1 from rfl, ← advance_advance,
    advance_digits four number, between_advance_one (by decide)]

theorem pairChar_eq (high low : Nat) :
    (if 0xDC00 ≤ low ∧ low < 0xE000 then
        charFromU32 (0x10000 + ((high - 0xD800) <<< 10) + (low - 0xDC00))
      else none).getD '\uFFFD' = pairChar high low := by
  have test : (0xDC00 ≤ low ∧ low < 0xE000) ↔ isLowSurrogate low = true := by
    simp [isLowSurrogate]
  have sum : 0x10000 + ((high - 0xD800) <<< 10) + (low - 0xDC00) = pairValue high low := by
    unfold pairValue
    omega
  simp only [pairChar, test, sum]

theorem unicodeEscape_sound {c : Char} {s : Scanner}
    (accepted : (between read ('u' :: rest) stack found).unicodeEscape = .ok (c, s)) :
    ∃ esc tail, 'u' :: rest = esc ++ tail ∧ Escape esc tail c ∧
      s.advance 1 = between (read ++ esc) tail stack found := by
  simp only [unicodeEscape, Scan.bind_eq_ok] at accepted
  obtain ⟨⟨high, _⟩, hex, paired, lookahead, final⟩ := accepted
  obtain ⟨first, tail, rfl, four, number, rfl⟩ := hex4_sound hex
  rw [pairs_eq four number, Scan.ok.injEq] at lookahead
  cases paired with
  | false =>
      simp only [Bool.false_eq_true, ↓reduceIte, Scan.pure_eq, Scan.ok.injEq,
        Prod.mk.injEq] at final
      obtain ⟨rfl, rfl⟩ := final
      refine ⟨'u' :: first, tail, rfl, .single four number ?_, ?_⟩
      · rintro ⟨surrogate, leads⟩
        simp [surrogate, List.isPrefixOf_iff_prefix.mpr leads] at lookahead
      · rw [advance_advance, advance_digits four number]
  | true =>
      simp only [Bool.and_eq_true] at lookahead
      obtain ⟨surrogate, leads⟩ := lookahead
      obtain ⟨tail, rfl⟩ := List.isPrefixOf_iff_prefix.mp leads
      simp only [↓reduceIte, Scan.bind_eq_ok, Scan.pure_eq, Scan.ok.injEq,
        Prod.mk.injEq] at final
      obtain ⟨⟨low, _⟩, hex, rfl, rfl⟩ := final
      rw [show ['\\', 'u'] ++ tail = '\\' :: 'u' :: tail from rfl,
        advance_second four number] at hex
      obtain ⟨second, tail, rfl, four', number', rfl⟩ := hex4_sound hex
      refine ⟨'u' :: first ++ '\\' :: 'u' :: second, tail, by simp, ?_, ?_⟩
      · rw [pairChar_eq]
        exact .pair four number surrogate four' number'
      · rw [advance_advance, advance_digits four' number']
        simp

theorem unicodeEscape_complete {esc : Str} {c : Char} (escape : Escape ('u' :: esc) rest c) :
    ∃ s, (between read ('u' :: (esc ++ rest)) stack found).unicodeEscape = .ok (c, s) ∧
      s.advance 1 = between (read ++ 'u' :: esc) rest stack found := by
  generalize whole : 'u' :: esc = source at escape
  cases escape with
  | short known =>
      obtain ⟨rfl, rfl⟩ := List.cons.inj whole
      simp [shortEscape] at known
  | @single digits _ n four number alone =>
      obtain ⟨-, rfl⟩ := List.cons.inj whole
      have noPair : (isHighSurrogate n && ['\\', 'u'].isPrefixOf rest) = false := by
        rw [← Bool.not_eq_true, Bool.and_eq_true, List.isPrefixOf_iff_prefix]
        exact alone
      refine ⟨(between read ('u' :: (esc ++ rest)) stack found).advance 4, ?_, ?_⟩
      · simp only [unicodeEscape, hex4_complete four number, pairs_eq four number, noPair,
          Scan.ok_bind, Bool.false_eq_true, ↓reduceIte, Scan.pure_eq]
      · rw [advance_advance, advance_digits four number]
  | @pair first second _ high low four number surrogate four' number' =>
      obtain rfl : esc = first ++ '\\' :: 'u' :: second := (List.cons.inj whole).2
      have next : first ++ '\\' :: 'u' :: second ++ rest =
          first ++ '\\' :: 'u' :: (second ++ rest) := by simp
      have paired : (isHighSurrogate high &&
          ['\\', 'u'].isPrefixOf ('\\' :: 'u' :: (second ++ rest))) = true := by
        rw [Bool.and_eq_true, List.isPrefixOf_iff_prefix]
        exact ⟨surrogate, List.prefix_append ['\\', 'u'] _⟩
      refine ⟨(between (read ++ 'u' :: first ++ ['\\']) ('u' :: (second ++ rest)) stack
        found).advance 4, ?_, ?_⟩
      · simp only [next, unicodeEscape, hex4_complete four number, pairs_eq four number,
          paired, Scan.ok_bind, ↓reduceIte, advance_second four number,
          hex4_complete four' number', Scan.pure_eq, pairChar_eq]
      · rw [advance_advance, advance_digits four' number']
        simp

theorem escapeChar_eq {e : Char} (ascii : e.toNat < 0x80) :
    escapeChar (UInt8.ofNat e.toNat) = shortEscape e :=
  ascii_forall (fun e => escapeChar (UInt8.ofNat e.toNat) = shortEscape e)
    (by decide) ascii

set_option maxRecDepth 2000 in
theorem escapeChar_ascii {b : UInt8} {c : Char} (known : escapeChar b = some c) :
    b.toNat < 0x80 := by
  have each : ∀ n < 0x100, (escapeChar (UInt8.ofNat n)).isSome → n < 0x80 := by decide
  exact each b.toNat b.toNat_lt (by simp [known])

theorem escape_sound {c : Char} {s : Scanner}
    (accepted : (between read rest stack found).escape = .ok (c, s)) :
    ∃ esc tail, rest = esc ++ tail ∧ Escape esc tail c ∧
      s.advance 1 = between (read ++ esc) tail stack found := by
  simp only [escape] at accepted
  split at accepted
  · simp at accepted
  · next b lead =>
      split at accepted
      · next u =>
          subst u
          obtain ⟨tail, rfl⟩ := (byte?_iff 'u' (by decide)).mp lead
          exact unicodeEscape_sound accepted
      · split at accepted
        · next d known =>
            simp only [Scan.ok.injEq, Prod.mk.injEq] at accepted
            obtain ⟨rfl, rfl⟩ := accepted
            obtain ⟨e, tail, rfl, ascii, rfl⟩ := byte?_ascii (escapeChar_ascii known) lead
            rw [escapeChar_eq ascii] at known
            exact ⟨[e], tail, rfl, .short known, between_advance_one ascii⟩
        · simp at accepted

theorem shortEscape_ascii {e c : Char} (known : shortEscape e = some c) :
    e.toNat < 0x80 ∧ e ≠ 'u' := by
  unfold shortEscape at known
  split at known <;> first | exact ⟨by decide, by decide⟩ | simp at known

theorem escape_complete {esc : Str} {c : Char} (escape : Escape esc rest c) :
    ∃ s, (between read (esc ++ rest) stack found).escape = .ok (c, s) ∧
      s.advance 1 = between (read ++ esc) rest stack found := by
  have unicode : ∀ digits, esc = 'u' :: digits →
      ∃ s, (between read (esc ++ rest) stack found).escape = .ok (c, s) ∧
        s.advance 1 = between (read ++ esc) rest stack found := by
    rintro digits rfl
    have lead : (between read ('u' :: digits ++ rest) stack found).byte? = some 0x75 :=
      (byte?_iff 'u' (by decide)).mpr ⟨_, rfl⟩
    simp only [Scanner.escape, lead, ↓reduceIte]
    exact unicodeEscape_complete escape
  cases escape with
  | @short e _ _ known =>
      obtain ⟨ascii, notU⟩ := shortEscape_ascii known
      have lead : (between read ([e] ++ rest) stack found).byte? =
          some (UInt8.ofNat e.toNat) := (byte?_iff e ⟨ascii, rfl⟩).mpr ⟨rest, rfl⟩
      have notU' : UInt8.ofNat e.toNat ≠ 0x75 :=
        ascii_forall (fun e => e ≠ 'u' → UInt8.ofNat e.toNat ≠ 0x75)
          (by decide) ascii notU
      refine ⟨between read ([e] ++ rest) stack found, ?_, between_advance_one ascii⟩
      simp only [Scanner.escape, lead, notU', ↓reduceIte, escapeChar_eq ascii, known]
  | single => exact unicode _ rfl
  | pair => exact unicode _ rfl

/-! ## Plain characters -/

/-- The first octet of a character answers the tests of the string loops. -/
theorem lead_tests (c : Char) :
    ∃ b tail, String.utf8EncodeChar c = b :: tail ∧ (b = 0x22 ↔ c = '"') ∧
      (b = 0x5C ↔ c = '\\') ∧ (b < 0x20 ↔ c.toNat < 0x20) := by
  by_cases small : c.toNat < 0x80
  · refine ⟨_, [], encodeChar_ascii small, ?_⟩
    exact ascii_forall (fun c => (UInt8.ofNat c.toNat = 0x22 ↔ c = '"') ∧
      (UInt8.ofNat c.toNat = 0x5C ↔ c = '\\') ∧ (UInt8.ofNat c.toNat < 0x20 ↔ c.toNat < 0x20))
      (by decide) small
  · obtain ⟨b, tail, octets, -⟩ := encodeChar_eq_cons c
    have large : 0x80 ≤ b.toNat :=
      le_of_mem_encodeChar (Nat.le_of_not_lt small) (octets ▸ List.mem_cons_self)
    refine ⟨b, tail, octets, ⟨?_, ?_⟩, ⟨?_, ?_⟩, ⟨?_, ?_⟩⟩
    · rintro rfl
      exact absurd large (by decide)
    · rintro rfl
      exact absurd (by decide) small
    · rintro rfl
      exact absurd large (by decide)
    · rintro rfl
      exact absurd (by decide) small
    · intro control
      have := UInt8.lt_iff_toNat_lt.mp control
      simp at this
      omega
    · intro control
      omega

/-- The fast loop passes an octet that is neither special nor a control. -/
theorem plainFrom_skip {octets : Bytes} (high : ∀ b ∈ octets, 0x80 ≤ b.toNat)
    (rest : Bytes) (pos : Nat) :
    plainFrom (octets ++ rest) pos = plainFrom rest (pos + octets.length) := by
  induction octets generalizing pos with
  | nil => rfl
  | cons b octets ih =>
      simp only [List.mem_cons, forall_eq_or_imp] at high
      have tests : b ≠ 0x22 ∧ b ≠ 0x5C ∧ ¬b < 0x20 := by
        refine ⟨?_, ?_, ?_⟩
        · rintro rfl
          exact absurd high.1 (by decide)
        · rintro rfl
          exact absurd high.1 (by decide)
        · rw [UInt8.lt_iff_toNat_lt]
          simp
          omega
      rw [List.cons_append, plainFrom, if_neg tests.1, if_neg tests.2.1, if_neg tests.2.2,
        ih high.2, List.length_cons]
      congr 1
      omega

/-- The fast loop, character by character. -/
theorem plainFrom_cons (c : Char) (text : Str) (pos : Nat) :
    plainFrom (encode (c :: text)) pos =
      if c = '"' then some (true, pos)
      else if c = '\\' then some (false, pos)
      else if c.toNat < 0x20 then none
      else plainFrom (encode text) (pos + (encode [c]).length) := by
  obtain ⟨b, tail, octets, quote, backslash, control⟩ := lead_tests c
  have single : encode [c] = b :: tail := by simp [octets]
  rw [encode_cons, octets, List.cons_append, plainFrom]
  simp only [quote, backslash, control, single, List.length_cons]
  by_cases small : c.toNat < 0x80
  · rw [encodeChar_ascii small] at octets
    obtain ⟨-, rfl⟩ := List.cons.inj octets
    rfl
  · have high : ∀ o ∈ tail, 0x80 ≤ o.toNat := fun o member =>
      le_of_mem_encodeChar (Nat.le_of_not_lt small) (octets ▸ List.mem_cons_of_mem b member)
    rw [plainFrom_skip high, Nat.add_assoc, Nat.add_comm 1]

theorem plainFrom_sound {text : Str} {pos stop : Nat} {closed : Bool}
    (accepted : plainFrom (encode text) pos = some (closed, stop)) :
    ∃ plain tail, text = plain ++ (if closed then '"' else '\\') :: tail ∧
      (∀ c ∈ plain, IsUnescaped c) ∧ stop = pos + (encode plain).length := by
  induction text generalizing pos with
  | nil => simp [plainFrom] at accepted
  | cons c text ih =>
      rw [plainFrom_cons] at accepted
      split at accepted
      · next quote =>
          simp only [Option.some.injEq, Prod.mk.injEq] at accepted
          obtain ⟨rfl, rfl⟩ := accepted
          exact ⟨[], text, by simp [quote], by simp, by simp⟩
      · next quote =>
          split at accepted
          · next backslash =>
              simp only [Option.some.injEq, Prod.mk.injEq] at accepted
              obtain ⟨rfl, rfl⟩ := accepted
              exact ⟨[], text, by simp [backslash], by simp, by simp⟩
          · next backslash =>
              split at accepted
              · simp at accepted
              · next control =>
                  obtain ⟨plain, tail, rfl, all, rfl⟩ := ih accepted
                  refine ⟨c :: plain, tail, rfl, ?_, ?_⟩
                  · simp only [List.mem_cons, forall_eq_or_imp]
                    exact ⟨⟨Nat.le_of_not_lt control, quote, backslash⟩, all⟩
                  · simp only [encode_cons, encode_nil, List.append_nil, List.length_append]
                    omega

theorem plainFrom_complete {plain tail : Str} (all : ∀ c ∈ plain, IsUnescaped c)
    (closed : Bool) (pos : Nat) :
    plainFrom (encode (plain ++ (if closed then '"' else '\\') :: tail)) pos =
      some (closed, pos + (encode plain).length) := by
  induction plain generalizing pos with
  | nil =>
      rw [List.nil_append, plainFrom_cons]
      cases closed <;> simp
  | cons c plain ih =>
      simp only [List.mem_cons, forall_eq_or_imp] at all
      obtain ⟨⟨control, quote, backslash⟩, all⟩ := all
      rw [List.cons_append, plainFrom_cons, if_neg quote, if_neg backslash,
        if_neg (Nat.not_lt.mpr control), ih all]
      simp [Nat.add_assoc]

/-! ## Whole strings -/

/-- The slow loop, character by character. -/
theorem escaped_cons (fuel : Nat) (out : Str) (c : Char) :
    escaped (fuel + 1) out (between read (c :: rest) stack found) =
      if c = '"' then .ok (out, between (read ++ ['"']) rest stack found)
      else if c = '\\' then
        (between (read ++ ['\\']) rest stack found).escape >>= fun result =>
          escaped fuel (out ++ [result.1]) (result.2.advance 1)
      else if c.toNat < 0x20 then .none
      else escaped fuel (out ++ [c]) (between (read ++ [c]) rest stack found) := by
  obtain ⟨b, tail, octets, quote, backslash, control⟩ := lead_tests c
  have next : (between read (c :: rest) stack found).byte? = some b := by
    rw [between_byte?, encode_cons, octets]
    rfl
  have width : c.utf8Size = (encode [c]).length := by simp
  rw [escaped, next]
  simp only [quote, backslash, control]
  split
  · next isQuote => rw [isQuote, between_advance_one (by decide)]
  · split
    · next isBackslash => rw [isBackslash, between_advance_one (by decide)]
    · split
      · rfl
      · rw [between_text, between_pos, sliceFrom_append]
        simp only [Scan.expect, Scan.ok_bind, List.head?_cons, Scan.ofOption]
        have passed := @between_advance read rest stack found [c]
        rw [width]
        rw [List.singleton_append] at passed
        rw [passed]

theorem escaped_sound {fuel : Nat} {out value : Str} {s : Scanner}
    (accepted : escaped fuel out (between read rest stack found) = .ok (value, s)) :
    ∃ src tail read', rest = src ++ '"' :: tail ∧ LitChars src read' ∧
      value = out ++ read' ∧ s = between (read ++ src ++ ['"']) tail stack found := by
  induction fuel generalizing read rest out with
  | zero => simp [escaped] at accepted
  | succ fuel ih =>
      cases rest with
      | nil =>
          have next : (between read [] stack found).byte? = none := by
            rw [between_byte?]
            rfl
          simp [escaped, next] at accepted
      | cons c rest =>
          rw [escaped_cons] at accepted
          split at accepted
          · next quote =>
              simp only [Scan.ok.injEq, Prod.mk.injEq] at accepted
              obtain ⟨rfl, rfl⟩ := accepted
              exact ⟨[], rest, [], by simp [quote], .nil, by simp, by simp⟩
          · next quote =>
              split at accepted
              · next backslash =>
                  obtain ⟨⟨d, s'⟩, escape, continued⟩ := Scan.bind_eq_ok.mp accepted
                  obtain ⟨esc, tail, rfl, isEscape, advanced⟩ := escape_sound escape
                  dsimp only at continued
                  rw [advanced] at continued
                  obtain ⟨src, tail, read', rfl, lit, rfl, rfl⟩ := ih continued
                  refine ⟨'\\' :: esc ++ src, tail, d :: read', by simp [backslash],
                    .escape (isEscape.narrow) lit, by simp, by simp⟩
              · next backslash =>
                  split at accepted
                  · simp at accepted
                  · next control =>
                      obtain ⟨src, tail, read', rfl, lit, rfl, rfl⟩ := ih accepted
                      exact ⟨c :: src, tail, c :: read', rfl,
                        .unescaped ⟨Nat.le_of_not_lt control, quote, backslash⟩ lit,
                        by simp, by simp⟩

theorem escaped_complete {src read' : Str} (lit : LitChars src read') {tail : Str} :
    ∀ {fuel read out}, src.length < fuel →
      escaped fuel out (between read (src ++ '"' :: tail) stack found) =
        .ok (out ++ read', between (read ++ src ++ ['"']) tail stack found) := by
  induction lit with
  | nil =>
      intro fuel read out enough
      obtain ⟨fuel, rfl⟩ := Nat.exists_eq_add_one_of_ne_zero (Nat.ne_zero_of_lt enough)
      rw [List.nil_append, escaped_cons]
      simp
  | @unescaped c rest value plain _ ih =>
      intro fuel read out enough
      obtain ⟨fuel, rfl⟩ := Nat.exists_eq_add_one_of_ne_zero (Nat.ne_zero_of_lt enough)
      obtain ⟨control, quote, backslash⟩ := plain
      rw [List.cons_append, escaped_cons, if_neg quote, if_neg backslash,
        if_neg (Nat.not_lt.mpr control), ih (by simpa using enough)]
      simp
  | @escape esc rest value c isEscape _ ih =>
      intro fuel read out enough
      obtain ⟨fuel, rfl⟩ := Nat.exists_eq_add_one_of_ne_zero (Nat.ne_zero_of_lt enough)
      obtain ⟨s, escaped', advanced⟩ := @escape_complete (read ++ ['\\']) _ stack found _ _
          (@Escape.widen _ _ tail _ isEscape)
      have fits : rest.length < fuel := by
        simp only [List.cons_append, List.length_cons, List.length_append] at enough
        omega
      rw [List.cons_append, List.cons_append, escaped_cons, if_neg (by decide),
        if_pos rfl, List.append_assoc, escaped', Scan.ok_bind]
      rw [advanced, ih fits]
      simp

/-- The scanner after the fast loop of `string`. -/
theorem between_goto (plain : Str) (c : Char) :
    (⟨read ++ ['"'] ++ (plain ++ c :: rest),
        (encode (read ++ ['"'])).length + (encode plain).length, stack, found⟩ : Scanner) =
      between (read ++ '"' :: plain) (c :: rest) stack found := by
  simp [between, Nat.add_assoc]

/-- A literal without escapes. -/
theorem string_closed {plain : Str} (all : ∀ c ∈ plain, IsUnescaped c) :
    (between read ('"' :: (plain ++ '"' :: rest)) stack found).string =
      .ok (plain, between (read ++ '"' :: plain ++ ['"']) rest stack found) := by
  have run := @plainFrom_complete _ rest all true (encode (read ++ ['"'])).length
  simp only [↓reduceIte] at run
  simp only [string, between_advance_one (c := '"') (by decide), between_bytes, between_pos,
    List.drop_left, run, Scan.ofOption, Scan.ok_bind, between_text, slice_append,
    Scan.expect, ↓reduceIte, between_stack, between_found, between_goto, Scan.pure_eq]

/-- A literal with escapes goes to the slow loop at the first one. -/
theorem string_open {plain : Str} (all : ∀ c ∈ plain, IsUnescaped c) :
    (between read ('"' :: (plain ++ '\\' :: rest)) stack found).string =
      escaped ((encode ('\\' :: rest)).length + 1) plain
        (between (read ++ '"' :: plain) ('\\' :: rest) stack found) := by
  have run := @plainFrom_complete _ rest all false (encode (read ++ ['"'])).length
  simp only [Bool.false_eq_true, ↓reduceIte] at run
  simp only [string, between_advance_one (c := '"') (by decide), between_bytes, between_pos,
    List.drop_left, run, Scan.ofOption, Scan.ok_bind, between_text, slice_append,
    Scan.expect, Bool.false_eq_true, ↓reduceIte, between_stack, between_found, between_goto,
    between_text]
  congr 2
  simp only [encode_append, encode_cons, encode_nil, List.append_nil, List.length_append]
  omega

theorem string_sound {value : Str} {s : Scanner}
    (accepted : (between read ('"' :: rest) stack found).string = .ok (value, s)) :
    ∃ src tail, rest = src ++ '"' :: tail ∧ LitChars src value ∧
      s = between (read ++ '"' :: src ++ ['"']) tail stack found := by
  obtain ⟨⟨closed, stop⟩, run⟩ :
      ∃ result, plainFrom (encode rest) (encode (read ++ ['"'])).length = some result := by
    simp only [string, between_advance_one (c := '"') (by decide), Scan.bind_eq_ok,
      Scan.ofOption_eq_ok, between_bytes, between_pos, List.drop_left] at accepted
    obtain ⟨result, run, -⟩ := accepted
    exact ⟨result, run⟩
  obtain ⟨plain, tail, rfl, all, -⟩ := plainFrom_sound run
  cases closed with
  | true =>
      simp only [↓reduceIte, string_closed all, Scan.ok.injEq, Prod.mk.injEq] at accepted
      obtain ⟨rfl, rfl⟩ := accepted
      exact ⟨plain, tail, rfl, .plain all, rfl⟩
  | false =>
      simp only [Bool.false_eq_true, ↓reduceIte, string_open all] at accepted ⊢
      obtain ⟨src, tail', read', whole, lit, rfl, rfl⟩ := escaped_sound accepted
      exact ⟨plain ++ src, tail', by simp [whole], lit.append_plain all, by simp⟩

theorem string_complete {src value : Str} (lit : LitChars src value) (tail : Str) :
    (between read ('"' :: (src ++ '"' :: tail)) stack found).string =
      .ok (value, between (read ++ '"' :: src ++ ['"']) tail stack found) := by
  obtain ⟨rfl, all⟩ | ⟨plain, src', value', rfl, rfl, all, lit'⟩ := lit.split
  · exact string_closed all
  · have enough : ('\\' :: src').length <
        (encode ('\\' :: (src' ++ '"' :: tail))).length + 1 := by
      have := length_le_encode ('\\' :: (src' ++ '"' :: tail))
      simp only [List.length_cons, List.length_append] at this ⊢
      omega
    have slow := @escaped_complete stack found _ _ lit' tail _ (read ++ '"' :: plain) plain
        enough
    rw [List.append_assoc, List.cons_append, string_open all]
    rw [List.cons_append] at slow
    rw [slow]
    simp

end Scanner

/-! ## The literals of RFC 8259 -/

theorem u32FromStrRadix16_of_hexNumber {digits : Str} {n : Nat} (four : digits.length = 4)
    (number : hexNumber digits = some n) : u32FromStrRadix16 digits = some n :=
  (u32FromStrRadix16_eq_some four).mpr (.inl number)

/-- A surrogate pair is a character beyond the basic plane. -/
theorem pairValue_valid {high low : Nat} (surrogate : isHighSurrogate high = true)
    (surrogate' : isLowSurrogate low = true) : (pairValue high low).isValidChar := by
  simp only [isHighSurrogate, Bool.and_eq_true, decide_eq_true_eq] at surrogate
  simp only [isLowSurrogate, Bool.and_eq_true, decide_eq_true_eq] at surrogate'
  unfold Nat.isValidChar pairValue
  omega

theorem getD_charFromU32 {n : Nat} (valid : n.isValidChar) :
    (charFromU32 n).getD '\uFFFD' = Char.ofNat n := by
  rw [charFromU32, if_pos valid, Option.getD_some]

theorem pairChar_of_low {high low : Nat} (surrogate : isHighSurrogate high = true)
    (surrogate' : isLowSurrogate low = true) :
    pairChar high low = Char.ofNat (pairValue high low) := by
  rw [pairChar, if_pos surrogate', getD_charFromU32 (pairValue_valid surrogate surrogate')]

/-- A literal with paired surrogate escapes is taken for the string it denotes. -/
theorem LitChars.of_denotes {src value : Str} (denotes : Denotes src value) :
    LitChars src value := by
  induction denotes with
  | nil => exact .nil
  | unescaped plain _ ih => exact .unescaped plain ih
  | short known _ ih => exact .escape (.short known) ih
  | @unicode digits rest value n four number valid _ ih =>
      rw [← getD_charFromU32 valid]
      refine @LitChars.escape ('u' :: digits) _ _ _
        (.single four (u32FromStrRadix16_of_hexNumber four number) ?_) ih
      rintro ⟨surrogate, -⟩
      simp only [isHighSurrogate, Bool.and_eq_true, decide_eq_true_eq] at surrogate
      simp only [Nat.isValidChar] at valid
      omega
  | @pair first second rest value high low four number surrogate four' number' surrogate' _
      ih =>
      rw [← pairChar_of_low surrogate surrogate']
      have lit := @LitChars.escape ('u' :: first ++ '\\' :: 'u' :: second) _ _ _
          (.pair four (u32FromStrRadix16_of_hexNumber four number) surrogate four'
          (u32FromStrRadix16_of_hexNumber four' number')) ih
      simpa using lit

/-- What the scanner reads is in its lenient grammar. -/
theorem LitChars.chars {src value : Str} (lit : LitChars src value) :
    Chars LooseHex src := by
  induction lit with
  | nil => exact .nil
  | unescaped plain _ ih => exact .unescaped plain ih
  | @escape esc rest value c isEscape _ ih =>
      cases isEscape with
      | short known => exact .short (by simp [known]) ih
      | single four number _ => exact .unicode (looseHex_iff.mpr ⟨four, _, number⟩) ih
      | @pair first second _ high low four number _ four' number' =>
          have inner := Chars.unicode (looseHex_iff.mpr ⟨four', _, number'⟩) ih
          have outer := Chars.unicode (looseHex_iff.mpr ⟨four, _, number⟩) inner
          simpa using outer

/-- Everything in the lenient grammar is read as some string. -/
theorem exists_litChars (n : Nat) :
    ∀ {src : Str}, src.length < n → Chars LooseHex src → ∃ value, LitChars src value := by
  induction n with
  | zero => intro src short; omega
  | succ n ih =>
      intro src short chars
      cases chars with
      | nil => exact ⟨[], .nil⟩
      | unescaped plain rest =>
          obtain ⟨value, lit⟩ := ih (by simpa using short) rest
          exact ⟨_, .unescaped plain lit⟩
      | @short e rest known chars =>
          obtain ⟨c, known⟩ := Option.isSome_iff_exists.mp known
          obtain ⟨value, lit⟩ := ih (by simp at short; omega) chars
          exact ⟨_, .escape (.short known) lit⟩
      | @unicode digits rest hex chars =>
          obtain ⟨four, high, number⟩ := looseHex_iff.mp hex
          by_cases paired : isHighSurrogate high ∧ ['\\', 'u'] <+: rest
          · obtain ⟨surrogate, tail, rfl⟩ := paired
            generalize whole : ['\\', 'u'] ++ tail = rest at chars
            cases chars with
            | nil => simp at whole
            | unescaped plain _ =>
                obtain ⟨rfl, -⟩ := List.cons.inj whole
                exact absurd rfl plain.2.2
            | short known _ =>
                obtain ⟨rfl, -⟩ := List.cons.inj (List.cons.inj whole).2
                simp [shortEscape] at known
            | @unicode second rest hex' chars' =>
                obtain rfl : tail = second ++ rest :=
                  (List.cons.inj (List.cons.inj whole).2).2
                obtain ⟨four', low, number'⟩ := looseHex_iff.mp hex'
                obtain ⟨value, lit⟩ := ih (by simp at short; omega) chars'
                have lit' := @LitChars.escape ('u' :: digits ++ '\\' :: 'u' :: second) _ _ _
                    (.pair four number surrogate four' number') lit
                exact ⟨_, by simpa using lit'⟩
          · obtain ⟨value, lit⟩ := ih (by simp at short; omega) chars
            exact ⟨_, .escape (.single four number paired) lit⟩

/-- The literals the scanner reads are those of its lenient grammar. -/
theorem exists_litChars_iff {src : Str} :
    (∃ value, LitChars src value) ↔ Chars LooseHex src :=
  ⟨fun ⟨_, lit⟩ => lit.chars, exists_litChars _ (Nat.lt_succ_self _)⟩

/-- Every encoding of a string is read as the string, up to the quote behind it, and the slow
loop from the first character on reads it as the whole step does. -/
theorem string_decodes {source value : Str} (denotes : Denotes source value) (front tail : Str)
    (stack : List Segment) (found : List FoundString) :
    let text := front ++ '"' :: (source ++ '"' :: tail)
    let start : Scanner := ⟨text, (encode front).length, stack, found⟩
    let stop : Scanner := ⟨text, (encode (front ++ '"' :: source ++ ['"'])).length, stack, found⟩
    start.string = .ok (value, stop) ∧
      ∀ fuel, source.length < fuel →
        Scanner.escaped fuel [] (start.advance 1) = .ok (value, stop) := by
  intro text start stop
  have lit := LitChars.of_denotes denotes
  have atQuote : start = Scanner.between front ('"' :: (source ++ '"' :: tail)) stack found := rfl
  have behind : stop = Scanner.between (front ++ '"' :: source ++ ['"']) tail stack found := by
    simp [stop, text, Scanner.between]
  rw [atQuote, behind]
  refine ⟨Scanner.string_complete lit tail, fun fuel enough => ?_⟩
  rw [Scanner.between_advance_one (by decide)]
  have slow := @Scanner.escaped_complete stack found _ _ lit tail fuel (front ++ ['"']) [] enough
  simpa using slow

/-- Characters, escapes of two kinds and a surrogate pair. -/
theorem string_decodes_pair :
    let text := "[\"é\\n\\u00fC\\uD83d\\uDE00\"]".toList
    (⟨text, 1, [], []⟩ : Scanner).string = .ok ("é\nü😀".toList, ⟨text, 25, [], []⟩) := by
  have denotes : Denotes "é\\n\\u00fC\\uD83d\\uDE00".toList "é\nü😀".toList :=
    .unescaped ⟨by decide, by decide, by decide⟩ (.short (e := 'n') (by decide)
      (@Denotes.unicode "00fC".toList _ _ 0xFC rfl (by decide) (by decide)
        (@Denotes.pair "D83d".toList "DE00".toList [] [] 0xD83D 0xDE00 rfl (by decide) (by decide)
          rfl (by decide) (by decide) .nil)))
  have decoded := (string_decodes denotes "[".toList "]".toList [] []).1
  have start : (encode "[".toList).length = 1 := by decide
  have stop : (encode ("[".toList ++ '"' :: "é\\n\\u00fC\\uD83d\\uDE00".toList ++ ['"'])).length =
      25 := by
    decide
  rwa [start, stop] at decoded

end Proxemby
