import Mathlib.Data.List.DropRight
import Mathlib.Data.List.GetD
import Mathlib.Data.List.Nodup
import Proxemby.Lib.Text

/-!
# Base64

The base64 encodings over an arbitrary alphabet of 64 letters, with and without
padding.  A decoder rejects letters outside its alphabet, stray bits and wrong padding,
and undoes its encoder.
-/

namespace Base64

/-! ## Groups of six bits -/

/-- The octets three to a group, as numbers below 64. -/
def sextets : List UInt8 → List Nat
  | a :: b :: c :: rest =>
      let a := a.toNat
      let b := b.toNat
      let c := c.toNat
      a / 4 :: (a % 4 * 16 + b / 16) :: (b % 16 * 4 + c / 64) :: c % 64 :: sextets rest
  | [a, b] =>
      [a.toNat / 4, a.toNat % 4 * 16 + b.toNat / 16, b.toNat % 16 * 4]
  | [a] => [a.toNat / 4, a.toNat % 4 * 16]
  | [] => []

/-- The octets that sextets stand for; bits that are left over must be zero. -/
def octets : List Nat → Option (List UInt8)
  | w :: x :: y :: z :: rest =>
      (octets rest).map fun out =>
        UInt8.ofNat (w * 4 + x / 16) :: UInt8.ofNat (x % 16 * 16 + y / 4) ::
          UInt8.ofNat (y % 4 * 64 + z) :: out
  | [w, x, y] =>
      if y % 4 = 0 then
        some [UInt8.ofNat (w * 4 + x / 16), UInt8.ofNat (x % 16 * 16 + y / 4)]
      else none
  | [w, x] => if x % 16 = 0 then some [UInt8.ofNat (w * 4 + x / 16)] else none
  | [_] => none
  | [] => some []

theorem octet_eq {b : UInt8} {n : Nat} (value : n = b.toNat) : UInt8.ofNat n = b := by
  rw [value, UInt8.ofNat_toNat]

theorem octets_sextets (bytes : List UInt8) : octets (sextets bytes) = some bytes := by
  fun_induction sextets bytes with
  | case1 a b c rest a' b' c' ih =>
      have ha := a.toNat_lt
      have hb := b.toNat_lt
      have hc := c.toNat_lt
      rw [octets, ih, Option.map_some]
      rw [octet_eq (b := a) (by omega), octet_eq (b := b) (by omega),
        octet_eq (b := c) (by omega)]
  | case2 a b =>
      have ha := a.toNat_lt
      have hb := b.toNat_lt
      rw [octets, if_pos (by omega), octet_eq (b := a) (by omega),
        octet_eq (b := b) (by omega)]
  | case3 a =>
      have ha := a.toNat_lt
      rw [octets, if_pos (by omega), octet_eq (b := a) (by omega)]
  | case4 => rfl

theorem sextets_lt (bytes : List UInt8) : ∀ n ∈ sextets bytes, n < 64 := by
  fun_induction sextets bytes with
  | case1 a b c rest a' b' c' ih =>
      have ha := a.toNat_lt
      have hb := b.toNat_lt
      have hc := c.toNat_lt
      simp only [List.mem_cons, forall_eq_or_imp]
      exact ⟨by omega, by omega, by omega, by omega, ih⟩
  | case2 a b =>
      have ha := a.toNat_lt
      have hb := b.toNat_lt
      simp only [List.mem_cons, List.not_mem_nil, or_false, forall_eq_or_imp, forall_eq]
      exact ⟨by omega, by omega, by omega⟩
  | case3 a =>
      have ha := a.toNat_lt
      simp only [List.mem_cons, List.not_mem_nil, or_false, forall_eq_or_imp, forall_eq]
      exact ⟨by omega, by omega⟩
  | case4 => simp

theorem length_sextets (bytes : List UInt8) :
    (sextets bytes).length = (bytes.length * 4 + 2) / 3 := by
  fun_induction sextets bytes with
  | case1 a b c rest a' b' c' ih =>
      simp only [List.length_cons, ih]
      omega
  | case2 a b => simp
  | case3 a => simp
  | case4 => rfl

/-! ## Alphabets -/

/-- Sixty-four different letters, none of them the padding. -/
structure Alphabet where
  letters : List Char
  length : letters.length = 64
  nodup : letters.Nodup
  pad : '=' ∉ letters

namespace Alphabet

variable (alphabet : Alphabet)

def letter (n : Nat) : Char := alphabet.letters.getD n 'A'

def digit (c : Char) : Option Nat :=
  if c ∈ alphabet.letters then some (alphabet.letters.idxOf c) else none

def encode (bytes : List UInt8) : List Char := (sextets bytes).map alphabet.letter

def decode (text : List Char) : Option (List UInt8) := (text.mapM alphabet.digit).bind octets

theorem letter_mem {n : Nat} (bound : n < 64) : alphabet.letter n ∈ alphabet.letters := by
  rw [letter, List.getD_eq_getElem _ _ (by rw [alphabet.length]; exact bound)]
  exact List.getElem_mem _

theorem digit_letter {n : Nat} (bound : n < 64) : alphabet.digit (alphabet.letter n) = some n := by
  rw [digit, if_pos (alphabet.letter_mem bound), letter,
    List.getD_eq_getElem _ _ (by rw [alphabet.length]; exact bound),
    alphabet.nodup.idxOf_getElem]

theorem mapM_digit {digits : List Nat} (bound : ∀ n ∈ digits, n < 64) :
    (digits.map alphabet.letter).mapM alphabet.digit = some digits := by
  induction digits with
  | nil => rfl
  | cons n digits ih =>
      simp only [List.mem_cons, forall_eq_or_imp] at bound
      simp [List.mapM_cons, alphabet.digit_letter bound.1, ih bound.2]

theorem decode_encode (bytes : List UInt8) :
    alphabet.decode (alphabet.encode bytes) = some bytes := by
  rw [decode, encode, alphabet.mapM_digit (sextets_lt bytes), Option.bind_some,
    octets_sextets]

theorem encode_mem (bytes : List UInt8) : ∀ c ∈ alphabet.encode bytes, c ∈ alphabet.letters := by
  intro c member
  obtain ⟨n, digit, rfl⟩ := List.mem_map.mp member
  exact alphabet.letter_mem (sextets_lt bytes n digit)

theorem length_encode (bytes : List UInt8) :
    (alphabet.encode bytes).length = (bytes.length * 4 + 2) / 3 := by
  rw [encode, List.length_map, length_sextets]

/-! ## Padding -/

/-- Fill the last group of four letters. -/
def padded (text : List Char) : List Char :=
  text ++ List.replicate ((4 - text.length % 4) % 4) '='

def encodePadded (bytes : List UInt8) : List Char := padded (alphabet.encode bytes)

def decodePadded (text : List Char) : Option (List UInt8) :=
  let body := text.rdropWhile (· = '=')
  if padded body = text then alphabet.decode body else none

theorem rdropWhile_padded {text : List Char} (fresh : '=' ∉ text) :
    (padded text).rdropWhile (· = '=') = text := by
  have pads : ∀ n, (text ++ List.replicate n '=').rdropWhile (· = '=') = text := by
    intro n
    induction n with
    | zero =>
        rw [List.replicate_zero, List.append_nil, List.rdropWhile_eq_self_iff]
        intro notNil
        have member := List.getLast_mem notNil
        intro equal
        rw [of_decide_eq_true equal] at member
        exact fresh member
    | succ n ih =>
        rw [List.replicate_succ', ← List.append_assoc, List.rdropWhile_concat_pos _ _ _ (by simp),
          ih]
  exact pads _

theorem decodePadded_encodePadded (bytes : List UInt8) :
    alphabet.decodePadded (alphabet.encodePadded bytes) = some bytes := by
  have fresh : '=' ∉ alphabet.encode bytes :=
    fun member => alphabet.pad (alphabet.encode_mem bytes _ member)
  rw [decodePadded, encodePadded]
  simp only [rdropWhile_padded fresh, ↓reduceIte]
  exact alphabet.decode_encode bytes

end Alphabet

/-- Successive characters. -/
def charRun (first : Char) (n : Nat) : List Char :=
  (List.range n).map fun i => Char.ofNat (first.toNat + i)

/-- The letters and digits that start both alphabets. -/
def alphanumerics : List Char := charRun 'A' 26 ++ charRun 'a' 26 ++ charRun '0' 10

/-- The alphabet of RFC 4648, section 4. -/
def standard : Alphabet where
  letters := alphanumerics ++ ['+', '/']
  length := by decide
  nodup := by decide +kernel
  pad := by decide +kernel

/-- The alphabet of RFC 4648, section 5, for URLs and file names. -/
def urlSafe : Alphabet where
  letters := alphanumerics ++ ['-', '_']
  length := by decide
  nodup := by decide +kernel
  pad := by decide +kernel

theorem urlSafe_letters :
    ∀ c ∈ urlSafe.letters, c.isAlphanum ∨ c = '-' ∨ c = '_' := by decide +kernel

example : standard.encodePadded [0x66, 0x6F, 0x6F, 0x62] = "Zm9vYg==".toList := by decide

end Base64
