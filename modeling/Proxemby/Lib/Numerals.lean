import Mathlib.Algebra.Group.Nat.Defs
import Mathlib.Data.Char
import Mathlib.Data.List.Basic
import Mathlib.Data.List.Lex
import Mathlib.Tactic.Tauto

/-!
# Numbers written in a fixed width

Decimal digits of one width are ordered as texts like the numbers they are, and so is what
stands behind equal ones.
-/

namespace Numerals

/-- As many decimal digits as given, with the value of a number. -/
structure IsNumeral (width : Nat) (n : Int) (text : List Char) : Prop where
  width : text.length = width
  digits : ∀ c ∈ text, c.isDigit = true
  value : (Nat.ofDigitChars 10 text 0 : Int) = n

/-- Texts of one length decide the order of what they are in front of. -/
theorem append_lt_append_iff {α : Type} [LT α] {front front' back back' : List α}
    (same : front.length = front'.length) :
    front ++ back < front' ++ back' ↔ front < front' ∨ front = front' ∧ back < back' := by
  induction front generalizing front' with
  | nil =>
      obtain rfl := List.eq_nil_of_length_eq_zero same.symm
      simp
  | cons a front ih =>
      obtain ⟨b, front', rfl⟩ := List.exists_cons_of_length_eq_add_one same.symm
      rw [List.cons_append, List.cons_append, List.cons_lt_cons_iff, List.cons_lt_cons_iff,
        ih (Nat.succ.inj same), List.cons.injEq]
      tauto

theorem isDigit_range {c : Char} (digit : c.isDigit = true) : 48 ≤ c.toNat ∧ c.toNat ≤ 57 := by
  simpa [Char.isDigit, UInt32.le_iff_toNat_le] using digit

/-- A number is below the next one, whatever digits are behind both. -/
theorem ofDigitChars_range {text : List Char} (digits : ∀ c ∈ text, c.isDigit = true)
    (start : Nat) : start * 10 ^ text.length ≤ Nat.ofDigitChars 10 text start ∧
      Nat.ofDigitChars 10 text start < (start + 1) * 10 ^ text.length := by
  induction text generalizing start with
  | nil => simp
  | cons c text ih =>
      obtain ⟨here, rest⟩ := List.forall_mem_cons.mp digits
      have range := isDigit_range here
      have zero : '0'.toNat = 48 := rfl
      obtain ⟨least, most⟩ := ih rest (10 * start + (c.toNat - '0'.toNat))
      rw [Nat.ofDigitChars_cons, List.length_cons, Nat.pow_succ', ← Nat.mul_assoc, ← Nat.mul_assoc]
      constructor
      · refine le_trans (Nat.mul_le_mul_right _ ?_) least
        omega
      · refine lt_of_lt_of_le most (Nat.mul_le_mul_right _ ?_)
        omega

/-- The first digits that differ decide. -/
theorem ofDigitChars_lt {text text' : List Char} (same : text.length = text'.length)
    (digits : ∀ c ∈ text, c.isDigit = true) (digits' : ∀ c ∈ text', c.isDigit = true)
    {start start' : Nat} (before : start < start') :
    Nat.ofDigitChars 10 text start < Nat.ofDigitChars 10 text' start' :=
  calc Nat.ofDigitChars 10 text start
    _ < (start + 1) * 10 ^ text.length := (ofDigitChars_range digits start).2
    _ ≤ start' * 10 ^ text'.length := by rw [same]; exact Nat.mul_le_mul_right _ before
    _ ≤ Nat.ofDigitChars 10 text' start' := (ofDigitChars_range digits' start').1

theorem lt_iff_ofDigitChars {text text' : List Char} (same : text.length = text'.length)
    (digits : ∀ c ∈ text, c.isDigit = true) (digits' : ∀ c ∈ text', c.isDigit = true)
    (start : Nat) :
    text < text' ↔ Nat.ofDigitChars 10 text start < Nat.ofDigitChars 10 text' start := by
  induction text generalizing text' start with
  | nil =>
      obtain rfl := List.eq_nil_of_length_eq_zero same.symm
      simp
  | cons c text ih =>
      obtain ⟨d, text', rfl⟩ := List.exists_cons_of_length_eq_add_one same.symm
      obtain ⟨here, rest⟩ := List.forall_mem_cons.mp digits
      obtain ⟨here', rest'⟩ := List.forall_mem_cons.mp digits'
      have range := isDigit_range here
      have range' := isDigit_range here'
      have zero : '0'.toNat = 48 := rfl
      have length : text.length = text'.length := Nat.succ.inj same
      rw [List.cons_lt_cons_iff, Nat.ofDigitChars_cons, Nat.ofDigitChars_cons]
      obtain less | rfl | more := lt_trichotomy c d
      · have order : c.toNat < d.toNat := less
        exact iff_of_true (.inl less) (ofDigitChars_lt length rest rest' (by omega))
      · simpa using ih length rest rest' _
      · have order : d.toNat < c.toNat := more
        refine iff_of_false ?_ (lt_asymm (ofDigitChars_lt length.symm rest' rest (by omega)))
        rintro (less | ⟨equal, -⟩)
        · exact lt_asymm less more
        · exact more.ne' equal

namespace IsNumeral

variable {width : Nat} {n n' : Int} {text text' : List Char}

theorem lt_iff (is : IsNumeral width n text) (is' : IsNumeral width n' text') :
    text < text' ↔ n < n' := by
  rw [lt_iff_ofDigitChars (is.width.trans is'.width.symm) is.digits is'.digits 0, ← is.value,
    ← is'.value, Int.ofNat_lt]

theorem eq_iff (is : IsNumeral width n text) (is' : IsNumeral width n' text') :
    text = text' ↔ n = n' := by
  constructor
  · rintro rfl
    exact is.value.symm.trans is'.value
  · rintro rfl
    obtain less | equal | more := lt_trichotomy text text'
    · exact absurd ((is.lt_iff is').mp less) (Int.lt_irrefl _)
    · exact equal
    · exact absurd ((is'.lt_iff is).mp more) (Int.lt_irrefl _)

/-- What is behind numerals counts where they are equal. -/
theorem append_lt_iff (is : IsNumeral width n text) (is' : IsNumeral width n' text')
    {rest rest' : List Char} :
    text ++ rest < text' ++ rest' ↔ n < n' ∨ n = n' ∧ rest < rest' := by
  rw [append_lt_append_iff (is.width.trans is'.width.symm), is.lt_iff is', is.eq_iff is']

theorem ascii (is : IsNumeral width n text) : ∀ c ∈ text, c.toNat < 0x80 := by
  intro c member
  have range := isDigit_range (is.digits c member)
  omega

theorem append_inj (is : IsNumeral width n text) (is' : IsNumeral width n' text')
    {rest rest' : List Char} (same : text ++ rest = text' ++ rest') : n = n' ∧ rest = rest' := by
  obtain ⟨front, back⟩ := List.append_inj same (is.width.trans is'.width.symm)
  exact ⟨(is.eq_iff is').mp front, back⟩

end IsNumeral

end Numerals
