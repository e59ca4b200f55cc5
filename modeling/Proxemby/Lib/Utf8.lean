import Mathlib.Data.List.Basic
import Proxemby.Lib.Text

/-!
# UTF-8

Text is a list of Unicode scalar values, and `encode` is its UTF-8 form.  The
decoder walks the octets once and reports, for each maximal ill-formed
subsequence, a single failure; a strict decoder refuses those and a lossy one
puts U+FFFD in their place.
-/

namespace Utf8

/-- The UTF-8 octets of a text. -/
def encode (text : List Char) : List UInt8 :=
  text.flatMap String.utf8EncodeChar

@[simp] theorem encode_nil : encode [] = [] := rfl

@[simp] theorem encode_cons (c : Char) (text : List Char) :
    encode (c :: text) = String.utf8EncodeChar c ++ encode text := rfl

@[simp] theorem encode_append (left right : List Char) :
    encode (left ++ right) = encode left ++ encode right := by
  simp [encode]

private theorem toNat_ofNat {n : Nat} (small : n < 256) : (UInt8.ofNat n).toNat = n :=
  UInt8.toNat_ofNat_of_lt small

theorem toNat_ofNat_ascii {n : Nat} : n < 0x80 → (Char.ofNat n).toNat = n := by
  revert n
  decide

@[simp] theorem encode_eq_nil {text : List Char} : encode text = [] ↔ text = [] := by
  cases text with
  | nil => simp
  | cons c text =>
      have size := Char.utf8Size_pos c
      rw [← String.length_utf8EncodeChar, List.length_pos_iff] at size
      simp [size]

/-- A scalar value below U+0080 is its own single octet. -/
theorem encodeChar_ascii {c : Char} (small : c.toNat < 0x80) :
    String.utf8EncodeChar c = [UInt8.ofNat c.toNat] := by
  have bound : c.val.toNat ≤ 127 := Nat.le_of_lt_succ small
  simp only [String.utf8EncodeChar, bound, ↓reduceIte]
  rfl

theorem length_encode_ascii {text : List Char} (ascii : ∀ c ∈ text, c.toNat < 0x80) :
    (encode text).length = text.length := by
  induction text with
  | nil => rfl
  | cons c text ih =>
      simp only [List.mem_cons, forall_eq_or_imp] at ascii
      rw [encode_cons, encodeChar_ascii ascii.1, List.singleton_append, List.length_cons,
        List.length_cons, ih ascii.2]

/-- Octets of ASCII texts are ordered like the texts. -/
theorem encode_lt_encode {text text' : List Char} (ascii : ∀ c ∈ text, c.toNat < 0x80)
    (ascii' : ∀ c ∈ text', c.toNat < 0x80) : encode text < encode text' ↔ text < text' := by
  induction text generalizing text' with
  | nil =>
      cases text' with
      | nil => simp
      | cons d text' =>
          rw [encode_cons, encodeChar_ascii (List.forall_mem_cons.mp ascii').1]
          simp
  | cons c text ih =>
      cases text' with
      | nil => simp
      | cons d text' =>
          obtain ⟨small, rest⟩ := List.forall_mem_cons.mp ascii
          obtain ⟨small', rest'⟩ := List.forall_mem_cons.mp ascii'
          have value {c : Char} (small : c.toNat < 0x80) : (UInt8.ofNat c.toNat).toNat = c.toNat :=
            UInt8.toNat_ofNat_of_lt (Nat.lt_trans small (by decide))
          have less : UInt8.ofNat c.toNat < UInt8.ofNat d.toNat ↔ c < d := by
            rw [UInt8.lt_iff_toNat_lt, value small, value small']
            rfl
          have equal : UInt8.ofNat c.toNat = UInt8.ofNat d.toNat ↔ c = d := by
            rw [← UInt8.toNat_inj, value small, value small', Char.toNat_inj]
          rw [encode_cons, encode_cons, encodeChar_ascii small, encodeChar_ascii small',
            List.singleton_append, List.singleton_append, List.cons_lt_cons_iff,
            List.cons_lt_cons_iff, ih rest rest', less, equal]

/-- No character takes less than an octet. -/
theorem length_le_encode (text : List Char) : text.length ≤ (encode text).length := by
  induction text with
  | nil => simp
  | cons c text ih =>
      have := Char.utf8Size_pos c
      simp only [List.length_cons, encode_cons, List.length_append,
        String.length_utf8EncodeChar]
      omega

/-- Every octet of a scalar value from U+0080 on is at least 0x80. -/
theorem le_of_mem_encodeChar {c : Char} (large : 0x80 ≤ c.toNat) {b : UInt8}
    (member : b ∈ String.utf8EncodeChar c) : 0x80 ≤ b.toNat := by
  have valid := c.valid
  simp only [UInt32.isValidChar, Nat.isValidChar] at valid
  change 0x80 ≤ c.val.toNat at large
  revert member
  fun_cases String.utf8EncodeChar c <;> intro member <;>
    simp only [List.mem_cons, List.not_mem_nil, or_false] at member <;>
    rcases member with rfl | rfl | rfl | rfl <;>
    simp only [UInt8.toNat_ofNat'] <;> omega

/-- A test that only singles out octets below 0x80 reads the same off the text
and off its octets. -/
theorem any_encode (test : UInt8 → Bool)
    (ascii : ∀ b : UInt8, test b = true → b.toNat < 0x80) (text : List Char) :
    (encode text).any test =
      text.any fun c => decide (c.toNat < 0x80) && test (UInt8.ofNat c.toNat) := by
  induction text with
  | nil => rfl
  | cons c text ih =>
      rw [encode_cons, List.any_append, ih, List.any_cons]
      congr 1
      by_cases small : c.toNat < 0x80
      · simp [encodeChar_ascii small, small]
      · simp only [small, decide_false, Bool.false_and, List.any_eq_false]
        intro b member tested
        have := le_of_mem_encodeChar (Nat.le_of_not_lt small) member
        have := ascii b tested
        omega

/-- A property of the 128 ASCII characters, checked one by one. -/
theorem ascii_forall (holds : Char → Prop) (each : ∀ n < 0x80, holds (Char.ofNat n))
    {c : Char} (small : c.toNat < 0x80) : holds c :=
  Char.ofNat_toNat c ▸ each c.toNat small

/-- The first octet of a scalar value; below 0x80 it is the whole of it. -/
theorem encodeChar_eq_cons (c : Char) :
    ∃ b tail, String.utf8EncodeChar c = b :: tail ∧
      (b.toNat < 0x80 → c = Char.ofNat b.toNat ∧ tail = []) := by
  by_cases small : c.toNat < 0x80
  · refine ⟨_, [], encodeChar_ascii small, fun _ => ⟨?_, rfl⟩⟩
    rw [toNat_ofNat (by omega), Char.ofNat_toNat]
  · cases octets : String.utf8EncodeChar c with
    | nil =>
        have := Char.utf8Size_pos c
        rw [← String.length_utf8EncodeChar, octets] at this
        exact absurd this (Nat.lt_irrefl 0)
    | cons b tail =>
        refine ⟨b, tail, rfl, fun lead => absurd lead (Nat.not_lt.mpr ?_)⟩
        exact le_of_mem_encodeChar (Nat.le_of_not_lt small) (octets ▸ List.mem_cons_self)

/-- A text starts with an ASCII octet just when it starts with its character. -/
theorem head?_encode {b : UInt8} (ascii : b.toNat < 0x80) {text : List Char} :
    (encode text).head? = some b ↔ ∃ rest, text = Char.ofNat b.toNat :: rest := by
  cases text with
  | nil => simp
  | cons c text =>
      obtain ⟨lead, tail, octets, single⟩ := encodeChar_eq_cons c
      simp only [encode_cons, octets, List.cons_append, List.head?_cons, Option.some.injEq,
        List.cons.injEq, exists_eq_right']
      constructor
      · rintro rfl
        exact (single ascii).1
      · rintro rfl
        have size : (Char.ofNat b.toNat).toNat = b.toNat := toNat_ofNat_ascii ascii
        rw [encodeChar_ascii (by omega), size] at octets
        simpa using (List.cons.inj octets).1.symm

/-- A run of octets that are all below 0x80 is a run of characters. -/
theorem takeWhile_encode (test : UInt8 → Bool)
    (ascii : ∀ b : UInt8, test b = true → b.toNat < 0x80) (text : List Char) :
    (encode text).takeWhile test =
      encode (text.takeWhile fun c =>
        decide (c.toNat < 0x80) && test (UInt8.ofNat c.toNat)) := by
  induction text with
  | nil => rfl
  | cons c text ih =>
      by_cases small : c.toNat < 0x80
      · rw [encode_cons, encodeChar_ascii small, List.singleton_append]
        by_cases tested : test (UInt8.ofNat c.toNat) = true
        · simp [tested, small, ih, encodeChar_ascii]
        · simp [tested]
      · obtain ⟨lead, tail, octets, -⟩ := encodeChar_eq_cons c
        have refused : test lead = false := by
          rw [← Bool.not_eq_true]
          intro tested
          have := ascii lead tested
          have := le_of_mem_encodeChar (c := c) (Nat.le_of_not_lt small)
            (octets ▸ List.mem_cons_self)
          omega
        rw [encode_cons, octets, List.cons_append]
        simp [refused, small]

/-- An ASCII word starts a text just when its octets start the text's. -/
theorem isPrefixOf_encode {word : List Char} (ascii : ∀ c ∈ word, c.toNat < 0x80) :
    ∀ text, (encode word).isPrefixOf (encode text) = word.isPrefixOf text := by
  induction word with
  | nil => intro text; rfl
  | cons w word ih =>
      simp only [List.mem_cons, forall_eq_or_imp] at ascii
      intro text
      cases text with
      | nil =>
          rw [encode_cons, encodeChar_ascii ascii.1]
          rfl
      | cons c text =>
          obtain ⟨lead, tail, octets, single⟩ := encodeChar_eq_cons c
          have first : (UInt8.ofNat w.toNat == lead) = (w == c) := by
            rw [Bool.eq_iff_iff, beq_iff_eq, beq_iff_eq]
            constructor
            · rintro rfl
              have value := toNat_ofNat (n := w.toNat) (by omega)
              rw [(single (by omega)).1, value, Char.ofNat_toNat]
            · rintro rfl
              rw [encodeChar_ascii ascii.1] at octets
              exact (List.cons.inj octets).1
          rw [encode_cons, encodeChar_ascii ascii.1, encode_cons, octets]
          simp only [List.cons_append, List.nil_append, List.isPrefixOf_cons_cons, first]
          by_cases equal : w = c
          · subst equal
            rw [encodeChar_ascii ascii.1] at octets
            rw [← (List.cons.inj octets).2, List.nil_append, ih ascii.2]
          · rw [beq_eq_false_iff_ne.mpr equal, Bool.false_and, Bool.false_and]

/-! ## Decoding -/

/-- A continuation octet. -/
def isCont (b : UInt8) : Bool := 0x80 ≤ b.toNat && b.toNat < 0xC0

/-- The octets that may come second after lead octet `lead` of three or four. -/
def isSecond (lead : Nat) (b : UInt8) : Bool :=
  isCont b &&
    match lead with
    | 0xE0 => 0xA0 ≤ b.toNat
    | 0xED => b.toNat < 0xA0
    | 0xF0 => 0x90 ≤ b.toNat
    | 0xF4 => b.toNat < 0x90
    | _ => true

/-- Decode one scalar value from lead octet `b` and the octets after it, or drop
a maximal ill-formed subsequence; the second component is what remains. -/
def decodeOne (b : UInt8) (rest : List UInt8) : Option Char × List UInt8 :=
  let n := b.toNat
  if n < 0x80 then (some (Char.ofNat n), rest)
  else if 0xC2 ≤ n ∧ n < 0xE0 then
    match rest with
    | b₁ :: rest₁ =>
        if isCont b₁ then
          (some (Char.ofNat ((n - 0xC0) * 64 + (b₁.toNat - 0x80))), rest₁)
        else (none, rest)
    | [] => (none, [])
  else if 0xE0 ≤ n ∧ n < 0xF0 then
    match rest with
    | b₁ :: rest₁ =>
        if isSecond n b₁ then
          match rest₁ with
          | b₂ :: rest₂ =>
              if isCont b₂ then
                (some (Char.ofNat ((n - 0xE0) * 4096 + (b₁.toNat - 0x80) * 64 +
                  (b₂.toNat - 0x80))), rest₂)
              else (none, rest₁)
          | [] => (none, [])
        else (none, rest)
    | [] => (none, [])
  else if 0xF0 ≤ n ∧ n < 0xF5 then
    match rest with
    | b₁ :: rest₁ =>
        if isSecond n b₁ then
          match rest₁ with
          | b₂ :: rest₂ =>
              if isCont b₂ then
                match rest₂ with
                | b₃ :: rest₃ =>
                    if isCont b₃ then
                      (some (Char.ofNat ((n - 0xF0) * 262144 +
                        (b₁.toNat - 0x80) * 4096 + (b₂.toNat - 0x80) * 64 +
                        (b₃.toNat - 0x80))), rest₃)
                    else (none, rest₂)
                | [] => (none, [])
              else (none, rest₁)
          | [] => (none, [])
        else (none, rest)
    | [] => (none, [])
  else (none, rest)

/-- Decode at most `fuel` scalar values or ill-formed subsequences. -/
def decodeUpTo : Nat → List UInt8 → List (Option Char)
  | 0, _ => []
  | _, [] => []
  | fuel + 1, b :: rest =>
      let (c, rest) := decodeOne b rest
      c :: decodeUpTo fuel rest

/-- Every scalar value of the octets, with `none` for each maximal ill-formed
subsequence.  Each takes at least one octet, so their number is enough fuel. -/
def decodeAll (bytes : List UInt8) : List (Option Char) :=
  decodeUpTo bytes.length bytes

/-- Strict decoding: `none` when the octets are not UTF-8. -/
def decode (bytes : List UInt8) : Option (List Char) :=
  (decodeAll bytes).mapM id

/-- Lossy decoding: U+FFFD for every maximal ill-formed subsequence. -/
def decodeLossy (bytes : List UInt8) : List Char :=
  (decodeAll bytes).map fun c => c.getD '\uFFFD'

/-- Decoding the octets of a scalar value gives it back. -/
theorem decodeOne_encodeChar (c : Char) (rest : List UInt8) :
    ∃ b tail, String.utf8EncodeChar c ++ rest = b :: tail ∧
      decodeOne b tail = (some c, rest) := by
  have valid := c.valid
  simp only [UInt32.isValidChar, Nat.isValidChar] at valid
  have self : Char.ofNat c.val.toNat = c := Char.ofNat_toNat c
  fun_cases String.utf8EncodeChar c with
  | case1 v one =>
      refine ⟨_, _, List.cons_append, ?_⟩
      have lead : (UInt8.ofNat v).toNat = v := toNat_ofNat (by omega)
      simp only [decodeOne, lead, List.nil_append]
      rw [if_pos (by omega), self]
  | case2 v one two =>
      refine ⟨_, _, List.cons_append, ?_⟩
      have lead : (UInt8.ofNat (v / 64 % 32 + 192)).toNat = v / 64 % 32 + 192 :=
        toNat_ofNat (by omega)
      have tail : (UInt8.ofNat (v % 64 + 128)).toNat = v % 64 + 128 :=
        toNat_ofNat (by omega)
      simp only [decodeOne, isCont, lead, tail, List.cons_append, List.nil_append,
        Bool.and_eq_true, decide_eq_true_eq]
      rw [if_neg (by omega), if_pos (by omega), if_pos (by omega)]
      rw [show (v / 64 % 32 + 192 - 0xC0) * 64 + (v % 64 + 128 - 0x80) = v by omega,
        self]
  | case3 v one two three =>
      refine ⟨_, _, List.cons_append, ?_⟩
      have lead : (UInt8.ofNat (v / 4096 % 16 + 224)).toNat = v / 4096 % 16 + 224 :=
        toNat_ofNat (by omega)
      have second : (UInt8.ofNat (v / 64 % 64 + 128)).toNat = v / 64 % 64 + 128 :=
        toNat_ofNat (by omega)
      have third : (UInt8.ofNat (v % 64 + 128)).toNat = v % 64 + 128 :=
        toNat_ofNat (by omega)
      have secondOk : isSecond (v / 4096 % 16 + 224)
          (UInt8.ofNat (v / 64 % 64 + 128)) = true := by
        simp only [isSecond, isCont, second, Bool.and_eq_true, decide_eq_true_eq]
        refine ⟨by omega, ?_⟩
        split <;> simp only [decide_eq_true_eq] <;> omega
      have thirdOk : isCont (UInt8.ofNat (v % 64 + 128)) = true := by
        simp only [isCont, third, Bool.and_eq_true, decide_eq_true_eq]
        omega
      simp only [decodeOne, lead, second, third, List.cons_append, List.nil_append,
        secondOk, thirdOk, ↓reduceIte]
      rw [if_neg (by omega), if_neg (by omega), if_pos (by omega)]
      rw [show (v / 4096 % 16 + 224 - 0xE0) * 4096 +
          (v / 64 % 64 + 128 - 0x80) * 64 + (v % 64 + 128 - 0x80) = v by omega, self]
  | case4 v one two three =>
      refine ⟨_, _, List.cons_append, ?_⟩
      have lead : (UInt8.ofNat (v / 262144 % 8 + 240)).toNat = v / 262144 % 8 + 240 :=
        toNat_ofNat (by omega)
      have second : (UInt8.ofNat (v / 4096 % 64 + 128)).toNat = v / 4096 % 64 + 128 :=
        toNat_ofNat (by omega)
      have third : (UInt8.ofNat (v / 64 % 64 + 128)).toNat = v / 64 % 64 + 128 :=
        toNat_ofNat (by omega)
      have fourth : (UInt8.ofNat (v % 64 + 128)).toNat = v % 64 + 128 :=
        toNat_ofNat (by omega)
      have secondOk : isSecond (v / 262144 % 8 + 240)
          (UInt8.ofNat (v / 4096 % 64 + 128)) = true := by
        simp only [isSecond, isCont, second, Bool.and_eq_true, decide_eq_true_eq]
        refine ⟨by omega, ?_⟩
        split <;> simp only [decide_eq_true_eq] <;> omega
      have thirdOk : isCont (UInt8.ofNat (v / 64 % 64 + 128)) = true := by
        simp only [isCont, third, Bool.and_eq_true, decide_eq_true_eq]
        omega
      have fourthOk : isCont (UInt8.ofNat (v % 64 + 128)) = true := by
        simp only [isCont, fourth, Bool.and_eq_true, decide_eq_true_eq]
        omega
      simp only [decodeOne, lead, second, third, fourth, List.cons_append,
        List.nil_append, secondOk, thirdOk, fourthOk, ↓reduceIte]
      rw [if_neg (by omega), if_neg (by omega), if_neg (by omega), if_pos (by omega)]
      rw [show (v / 262144 % 8 + 240 - 0xF0) * 262144 +
          (v / 4096 % 64 + 128 - 0x80) * 4096 + (v / 64 % 64 + 128 - 0x80) * 64 +
          (v % 64 + 128 - 0x80) = v by omega, self]

theorem decodeUpTo_encode (text : List Char) :
    ∀ {fuel}, (encode text).length ≤ fuel →
      decodeUpTo fuel (encode text) = text.map some := by
  induction text with
  | nil => intro fuel _; cases fuel <;> rfl
  | cons c text ih =>
      intro fuel enough
      rw [encode_cons] at enough ⊢
      obtain ⟨b, tail, split, decoded⟩ := decodeOne_encodeChar c (encode text)
      rw [List.length_append] at enough
      have positive : 0 < (String.utf8EncodeChar c).length := by
        simp [Char.utf8Size_pos]
      cases fuel with
      | zero => omega
      | succ fuel =>
          rw [split, decodeUpTo, decoded]
          simp only [List.map_cons, List.cons.injEq, true_and]
          exact ih (by omega)

@[simp] theorem decodeAll_encode (text : List Char) :
    decodeAll (encode text) = text.map some :=
  decodeUpTo_encode text (Nat.le_refl _)

/-- ASCII in front of other octets is decoded on its own. -/
theorem decodeAll_append_ascii {text : List Char} (ascii : ∀ c ∈ text, c.toNat < 0x80)
    (rest : List UInt8) : decodeAll (encode text ++ rest) = text.map some ++ decodeAll rest := by
  induction text with
  | nil => rfl
  | cons c text ih =>
      obtain ⟨here, later⟩ := List.forall_mem_cons.mp ascii
      obtain ⟨b, tail, split, decoded⟩ := decodeOne_encodeChar c (encode text ++ rest)
      rw [encodeChar_ascii here, List.singleton_append] at split
      rw [encode_cons, encodeChar_ascii here, List.singleton_append, List.cons_append, split,
        decodeAll, List.length_cons, decodeUpTo, decoded, ← (List.cons.inj split).2]
      exact congrArg (some c :: ·) (ih later)

theorem decodeLossy_append_ascii {text : List Char} (ascii : ∀ c ∈ text, c.toNat < 0x80)
    (rest : List UInt8) : decodeLossy (encode text ++ rest) = text ++ decodeLossy rest := by
  rw [decodeLossy, decodeAll_append_ascii ascii, List.map_append, List.map_map]
  exact congrArg (· ++ _) (List.map_id text)

private theorem mapM_id_map_some (text : List Char) :
    (text.map some).mapM id = some text := by
  induction text with
  | nil => rfl
  | cons c text ih => simp [List.mapM_cons, ih]

@[simp] theorem decode_encode (text : List Char) :
    decode (encode text) = some text := by
  rw [decode, decodeAll_encode, mapM_id_map_some]

/-! ## What strict decoding accepts -/

theorem val_ofNat {n : Nat} (valid : n.isValidChar) : (Char.ofNat n).val.toNat = n := by
  rw [Char.ofNat, dif_pos valid]
  rfl

theorem ofNat_eq {d : UInt8} {n : Nat} (same : d.toNat = n) : UInt8.ofNat n = d := by
  subst same
  simp

theorem isCont_iff {b : UInt8} : isCont b = true ↔ 0x80 ≤ b.toNat ∧ b.toNat < 0xC0 := by
  simp [isCont]

/-- A character of two octets is encoded to those that it was decoded from. -/
theorem encodeChar_two {b b₁ : UInt8} (lead : 0xC2 ≤ b.toNat ∧ b.toNat < 0xE0)
    (second : isCont b₁ = true) :
    String.utf8EncodeChar (Char.ofNat ((b.toNat - 0xC0) * 64 + (b₁.toNat - 0x80))) =
      [b, b₁] := by
  rw [isCont_iff] at second
  have value := val_ofNat (n := (b.toNat - 0xC0) * 64 + (b₁.toNat - 0x80)) (Or.inl (by omega))
  simp only [String.utf8EncodeChar, value]
  rw [if_neg (by omega), if_pos (by omega), @ofNat_eq b _ (by omega), @ofNat_eq b₁ _ (by omega)]

theorem encodeChar_three {b b₁ b₂ : UInt8} (lead : 0xE0 ≤ b.toNat ∧ b.toNat < 0xF0)
    (second : isSecond b.toNat b₁ = true) (third : isCont b₂ = true) :
    String.utf8EncodeChar (Char.ofNat ((b.toNat - 0xE0) * 4096 + (b₁.toNat - 0x80) * 64 +
      (b₂.toNat - 0x80))) = [b, b₁, b₂] := by
  simp only [isSecond, Bool.and_eq_true, isCont_iff] at second
  rw [isCont_iff] at third
  obtain ⟨cont, edge⟩ := second
  -- neither an overlong form nor a surrogate
  have low : b.toNat = 0xE0 → 0xA0 ≤ b₁.toNat := fun lead => by simpa [lead] using edge
  have high : b.toNat = 0xED → b₁.toNat < 0xA0 := fun lead => by simpa [lead] using edge
  have valid : ((b.toNat - 0xE0) * 4096 + (b₁.toNat - 0x80) * 64 +
      (b₂.toNat - 0x80)).isValidChar := by
    unfold Nat.isValidChar
    omega
  simp only [String.utf8EncodeChar, val_ofNat valid]
  rw [if_neg (by omega), if_neg (by omega), if_pos (by omega), @ofNat_eq b _ (by omega),
    @ofNat_eq b₁ _ (by omega), @ofNat_eq b₂ _ (by omega)]

theorem encodeChar_four {b b₁ b₂ b₃ : UInt8} (lead : 0xF0 ≤ b.toNat ∧ b.toNat < 0xF5)
    (second : isSecond b.toNat b₁ = true) (third : isCont b₂ = true)
    (fourth : isCont b₃ = true) :
    String.utf8EncodeChar (Char.ofNat ((b.toNat - 0xF0) * 262144 + (b₁.toNat - 0x80) * 4096 +
      (b₂.toNat - 0x80) * 64 + (b₃.toNat - 0x80))) = [b, b₁, b₂, b₃] := by
  simp only [isSecond, Bool.and_eq_true, isCont_iff] at second
  rw [isCont_iff] at third fourth
  obtain ⟨cont, edge⟩ := second
  -- neither an overlong form nor a value above the last character
  have low : b.toNat = 0xF0 → 0x90 ≤ b₁.toNat := fun lead => by simpa [lead] using edge
  have high : b.toNat = 0xF4 → b₁.toNat < 0x90 := fun lead => by simpa [lead] using edge
  have valid : ((b.toNat - 0xF0) * 262144 + (b₁.toNat - 0x80) * 4096 +
      (b₂.toNat - 0x80) * 64 + (b₃.toNat - 0x80)).isValidChar := by
    unfold Nat.isValidChar
    omega
  simp only [String.utf8EncodeChar, val_ofNat valid]
  rw [if_neg (by omega), if_neg (by omega), if_neg (by omega), @ofNat_eq b _ (by omega),
    @ofNat_eq b₁ _ (by omega), @ofNat_eq b₂ _ (by omega), @ofNat_eq b₃ _ (by omega)]

/-- What decodes to a scalar value is its octets. -/
theorem decodeOne_eq_some {b : UInt8} {rest rest' : List UInt8} {c : Char}
    (decoded : decodeOne b rest = (some c, rest')) :
    b :: rest = String.utf8EncodeChar c ++ rest' := by
  have size := b.toNat_lt
  simp only [decodeOne] at decoded
  split at decoded
  · next one =>
      simp only [Prod.mk.injEq, Option.some.injEq] at decoded
      obtain ⟨rfl, rfl⟩ := decoded
      have value := val_ofNat (n := b.toNat) (Or.inl (by omega))
      simp only [String.utf8EncodeChar, value]
      rw [if_pos (by omega), ofNat_eq rfl]
      rfl
  split at decoded
  · next two =>
      split at decoded
      · next b₁ rest₁ =>
          split at decoded
          · next second =>
              simp only [Prod.mk.injEq, Option.some.injEq] at decoded
              obtain ⟨rfl, rfl⟩ := decoded
              rw [encodeChar_two two second]
              rfl
          · simp at decoded
      · simp at decoded
  split at decoded
  · next three =>
      split at decoded
      · next b₁ rest₁ =>
          split at decoded
          · next second =>
              split at decoded
              · next b₂ rest₂ =>
                  split at decoded
                  · next third =>
                      simp only [Prod.mk.injEq, Option.some.injEq] at decoded
                      obtain ⟨rfl, rfl⟩ := decoded
                      rw [encodeChar_three three second third]
                      rfl
                  · simp at decoded
              · simp at decoded
          · simp at decoded
      · simp at decoded
  split at decoded
  · next four =>
      split at decoded
      · next b₁ rest₁ =>
          split at decoded
          · next second =>
              split at decoded
              · next b₂ rest₂ =>
                  split at decoded
                  · next third =>
                      split at decoded
                      · next b₃ rest₃ =>
                          split at decoded
                          · next fourth =>
                              simp only [Prod.mk.injEq, Option.some.injEq] at decoded
                              obtain ⟨rfl, rfl⟩ := decoded
                              rw [encodeChar_four four second third fourth]
                              rfl
                          · simp at decoded
                      · simp at decoded
                  · simp at decoded
              · simp at decoded
          · simp at decoded
      · simp at decoded
  · simp at decoded

theorem decodeUpTo_eq_some {text : List Char} :
    ∀ {fuel : Nat} {bytes : List UInt8}, bytes.length ≤ fuel →
      decodeUpTo fuel bytes = text.map some → bytes = encode text := by
  induction text with
  | nil =>
      intro fuel bytes enough decoded
      cases bytes with
      | nil => rfl
      | cons b rest =>
          cases fuel with
          | zero => simp at enough
          | succ fuel => simp [decodeUpTo] at decoded
  | cons c text ih =>
      intro fuel bytes enough decoded
      cases bytes with
      | nil => cases fuel <;> simp [decodeUpTo] at decoded
      | cons b rest =>
          cases fuel with
          | zero => simp at enough
          | succ fuel =>
              cases one : decodeOne b rest with
              | mk first rest' =>
                simp only [decodeUpTo, one, List.map_cons, List.cons.injEq] at decoded
                obtain ⟨rfl, decoded⟩ := decoded
                have octets := decodeOne_eq_some one
                have shorter : rest'.length ≤ fuel := by
                  have size := congrArg List.length octets
                  have positive := Char.utf8Size_pos c
                  simp only [List.length_cons, List.length_append,
                    String.length_utf8EncodeChar] at size enough
                  omega
                rw [octets, encode_cons, ih shorter decoded]

/-- Strictly decoded octets are the UTF-8 form of what they decode to. -/
theorem decode_eq_some {bytes : List UInt8} {text : List Char} :
    decode bytes = some text ↔ bytes = encode text := by
  constructor
  · intro decoded
    have each : ∀ (found : List (Option Char)) (text : List Char),
        found.mapM id = some text → found = text.map some := by
      intro found
      induction found with
      | nil => intro text read; simp at read; simp [← read]
      | cons c found ih =>
          intro text read
          simp only [List.mapM_cons, id_eq, Option.bind_eq_bind, Option.bind_eq_some_iff] at read
          obtain ⟨d, rfl, tail, read, same⟩ := read
          simp only [Option.pure_def, Option.some.injEq] at same
          subst same
          rw [ih tail read, List.map_cons]
    exact decodeUpTo_eq_some (Nat.le_refl _) (each _ _ decoded)
  · rintro rfl
    exact decode_encode text

theorem encode_injective : Function.Injective encode := by
  intro left right equal
  have decoded := congrArg decode equal
  simpa using decoded

example : decode (encode "a£€😀".toList) = some "a£€😀".toList := by decide

example : decodeLossy [0x61, 0xFF, 0xE2, 0x82, 0x62] = "a\uFFFD\uFFFDb".toList := by
  decide

end Utf8
