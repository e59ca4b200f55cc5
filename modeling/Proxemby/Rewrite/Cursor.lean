import Proxemby.Lib.Rfc8259
import Proxemby.Rewrite.Scanner

/-!
# Scanner positions as splits of the text

Every position the scanner takes stands between two halves of its text.  In
terms of the halves, the octet tests and offsets of the scanner read as tests
and cuts of characters: this module restates each scanning primitive that way.
-/

namespace Proxemby

open Utf8 Rfc8259

/-! ## Slices -/

theorem cutAt_append (word rest : Str) :
    cutAt (encode word).length (word ++ rest) = some (word, rest) := by
  induction word with
  | nil => simp [cutAt]
  | cons c word ih =>
      have size := Char.utf8Size_pos c
      obtain ⟨n, total⟩ : ∃ n, (encode (c :: word)).length = n + 1 :=
        Nat.exists_eq_add_one_of_ne_zero (by simp; omega)
      have octets : n + 1 = c.utf8Size + (encode word).length := by
        simpa using total.symm
      rw [total, List.cons_append, cutAt, if_pos (by omega),
        show n + 1 - c.utf8Size = (encode word).length by omega, ih]
      rfl

theorem cutAt_eq_some {n : Nat} {text before after : Str}
    (cut : cutAt n text = some (before, after)) :
    text = before ++ after ∧ n = (encode before).length := by
  induction text generalizing n before with
  | nil =>
      cases n with
      | zero =>
          simp only [cutAt, Option.some.injEq, Prod.mk.injEq] at cut
          obtain ⟨rfl, rfl⟩ := cut
          simp
      | succ n => simp [cutAt] at cut
  | cons c text ih =>
      cases n with
      | zero =>
          simp only [cutAt, Option.some.injEq, Prod.mk.injEq] at cut
          obtain ⟨rfl, rfl⟩ := cut
          simp
      | succ n =>
          simp only [cutAt, Option.ite_none_right_eq_some, Option.map_eq_some_iff,
            Prod.mk.injEq] at cut
          obtain ⟨fits, ⟨inner, rest⟩, found, rfl, rfl⟩ := cut
          obtain ⟨rfl, size⟩ := ih found
          refine ⟨rfl, ?_⟩
          simp only [encode_cons, List.length_append, String.length_utf8EncodeChar]
          omega

theorem sliceFrom_append (read rest : Str) :
    sliceFrom (read ++ rest) (encode read).length = some rest := by
  simp [sliceFrom, cutAt_append]

theorem slice_append (read word rest : Str) :
    slice (read ++ (word ++ rest)) (encode read).length
      ((encode read).length + (encode word).length) = some word := by
  simp [slice, sliceFrom_append, cutAt_append]

theorem slice_eq_some {read rest word : Str} {n : Nat}
    (sliced : slice (read ++ rest) (encode read).length ((encode read).length + n) =
      some word) :
    ∃ after, rest = word ++ after ∧ n = (encode word).length := by
  simp only [slice, Nat.le_add_right, ↓reduceIte, sliceFrom_append, Option.bind_some,
    Nat.add_sub_cancel_left, Option.map_eq_some_iff, Prod.exists, exists_and_right,
    exists_eq_right] at sliced
  obtain ⟨after, cut⟩ := sliced
  exact ⟨after, (cutAt_eq_some cut)⟩

/-! ## Positions -/

/-- A scanner that has read `read` of its text and has `rest` left. -/
def Scanner.between (read rest : Str) (stack : List Segment)
    (found : List FoundString) : Scanner :=
  ⟨read ++ rest, (encode read).length, stack, found⟩

namespace Scanner

variable {read rest word : Str} {stack : List Segment} {found : List FoundString}

theorem start_eq (text : Str) : start text = between [] text [] [] := rfl

@[simp] theorem between_pos :
    (between read rest stack found).pos = (encode read).length := rfl

@[simp] theorem between_text : (between read rest stack found).text = read ++ rest := rfl

@[simp] theorem between_stack : (between read rest stack found).stack = stack := rfl

@[simp] theorem between_found : (between read rest stack found).found = found := rfl

@[simp] theorem between_bytes :
    (between read rest stack found).bytes = encode read ++ encode rest := by
  simp [bytes]

@[simp] theorem between_push (segment : Segment) :
    (between read rest stack found).push segment =
      between read rest (stack ++ [segment]) found := rfl

@[simp] theorem between_pop (segment : Segment) :
    (between read rest (stack ++ [segment]) found).pop =
      between read rest stack found := by
  simp [pop, between]

theorem between_byte? :
    (between read rest stack found).byte? = (encode rest).head? := by
  simp [byte?, List.head?_eq_getElem?, List.getElem?_append_right]

theorem between_advance (word : Str) :
    (between read (word ++ rest) stack found).advance (encode word).length =
      between (read ++ word) rest stack found := by
  simp [advance, between]

/-- Step over one ASCII character. -/
theorem between_advance_one {c : Char} (ascii : c.toNat < 0x80) :
    (between read (c :: rest) stack found).advance 1 =
      between (read ++ [c]) rest stack found := by
  have size : (encode [c]).length = 1 := by simp [encodeChar_ascii ascii]
  rw [← @between_advance _ rest _ _ [c], size]
  rfl

@[simp] theorem advance_advance (s : Scanner) (m n : Nat) :
    (s.advance m).advance n = s.advance (m + n) := by
  simp [advance, Nat.add_assoc]

theorem between_startsWith (ascii : ∀ c ∈ word, c.toNat < 0x80) :
    (between read rest stack found).startsWith (encode read).length (encode word) =
      .ok (word.isPrefixOf rest) := by
  simp [startsWith, isPrefixOf_encode ascii]

/-! ## White space and digits -/

theorem skipWsFrom_eq (rest : Bytes) (pos : Nat) :
    skipWsFrom rest pos = pos + (rest.takeWhile fun b =>
      b = 0x20 || b = 0x09 || b = 0x0A || b = 0x0D).length := by
  induction rest generalizing pos with
  | nil => rfl
  | cons b rest ih =>
      rw [skipWsFrom, List.takeWhile_cons]
      split <;> simp_all
      omega

theorem digitsFrom_eq (rest : Bytes) (pos : Nat) :
    digitsFrom rest pos =
      pos + (rest.takeWhile fun b => 0x30 ≤ b && b ≤ 0x39).length := by
  induction rest generalizing pos with
  | nil => rfl
  | cons b rest ih =>
      rw [digitsFrom, List.takeWhile_cons]
      split <;> simp_all
      omega

theorem isWs_ascii {c : Char} (ws : isWs c = true) : c.toNat < 0x80 := by
  simp only [isWs, Bool.or_eq_true, beq_iff_eq] at ws
  rcases ws with ((rfl | rfl) | rfl) | rfl <;> decide

theorem isDigit_ascii {c : Char} (digit : isDigit c = true) : c.toNat < 0x80 := by
  simp only [isDigit, Bool.and_eq_true, decide_eq_true_eq, Char.le_def] at digit
  exact Nat.lt_of_le_of_lt (UInt32.le_iff_toNat_le.mp digit.2) (by decide)

/-- A run of ASCII characters that the scanner tests octet by octet. -/
private theorem run_encode {test : UInt8 → Bool} {char : Char → Bool}
    (testAscii : ∀ b : UInt8, test b = true → b.toNat < 0x80)
    (charAscii : ∀ c : Char, char c = true → c.toNat < 0x80)
    (same : ∀ n < 0x80, test (UInt8.ofNat (Char.ofNat n).toNat) = char (Char.ofNat n))
    (rest : Str) :
    (encode rest).takeWhile test = encode (rest.takeWhile char) := by
  rw [takeWhile_encode test testAscii]
  congr 2
  funext c
  by_cases small : c.toNat < 0x80
  · have equal := ascii_forall (fun c =>
      test (UInt8.ofNat c.toNat) = char c) same small
    simp [small, equal]
  · have refused : char c = false := by
      rw [← Bool.not_eq_true]
      exact fun accepted => small (charAscii c accepted)
    simp [small, refused]

theorem between_skipWs :
    (between read rest stack found).skipWs =
      between (read ++ rest.takeWhile isWs) (rest.dropWhile isWs) stack found := by
  have octets : (encode rest).takeWhile
      (fun b => b = 0x20 || b = 0x09 || b = 0x0A || b = 0x0D) =
        encode (rest.takeWhile isWs) := by
    refine run_encode (fun b member => ?_) (fun _ => isWs_ascii) (by decide) rest
    simp only [Bool.or_eq_true, decide_eq_true_eq] at member
    rcases member with ((rfl | rfl) | rfl) | rfl <;> decide
  simp only [skipWs, between_bytes, between_pos, List.drop_left, skipWsFrom_eq, octets]
  simp [between]

theorem between_digits :
    (between read rest stack found).digits =
      (decide (rest.takeWhile isDigit ≠ []),
        between (read ++ rest.takeWhile isDigit) (rest.dropWhile isDigit) stack found) := by
  have octets : (encode rest).takeWhile (fun b => 0x30 ≤ b && b ≤ 0x39) =
      encode (rest.takeWhile isDigit) := by
    refine run_encode (fun b member => ?_) (fun _ => isDigit_ascii) (by decide) rest
    simp only [Bool.and_eq_true, decide_eq_true_eq] at member
    exact Nat.lt_of_le_of_lt (UInt8.le_iff_toNat_le.mp member.2) (by decide)
  simp only [digits, between_bytes, between_pos, List.drop_left, digitsFrom_eq, octets,
    Prod.mk.injEq, decide_eq_decide]
  constructor
  · rw [Nat.lt_add_right_iff_pos, List.length_pos_iff, ne_eq, ne_eq, encode_eq_nil]
  · simp [between]

/-- The octet of an ASCII character `c` is next just when `c` is. -/
theorem byte?_iff {b : UInt8} (c : Char)
    (octet : c.toNat < 0x80 ∧ UInt8.ofNat c.toNat = b) :
    (between read rest stack found).byte? = some b ↔ ∃ tail, rest = c :: tail := by
  obtain ⟨ascii, rfl⟩ := octet
  have value : (UInt8.ofNat c.toNat).toNat = c.toNat :=
    UInt8.toNat_ofNat_of_lt (Nat.lt_trans ascii (by decide))
  rw [between_byte?, head?_encode (by omega), value, Char.ofNat_toNat]

/-- An ASCII octet that is next is a character. -/
theorem byte?_ascii {b : UInt8} (ascii : b.toNat < 0x80)
    (next : (between read rest stack found).byte? = some b) :
    ∃ c tail, rest = c :: tail ∧ c.toNat < 0x80 ∧ UInt8.ofNat c.toNat = b := by
  rw [between_byte?, head?_encode ascii] at next
  obtain ⟨tail, rfl⟩ := next
  have value := toNat_ofNat_ascii ascii
  exact ⟨_, tail, rfl, by omega, by simp [value]⟩

theorem literal_eq_ok (ascii : ∀ c ∈ word, c.toNat < 0x80) {s : Scanner} :
    (between read rest stack found).literal (encode word) = .ok s ↔
      ∃ tail, rest = word ++ tail ∧ s = between (read ++ word) tail stack found := by
  simp only [literal, between_pos, between_startsWith ascii, Scan.ok_bind]
  constructor
  · intro accepted
    split at accepted
    · next leads =>
        obtain ⟨tail, rfl⟩ := List.isPrefixOf_iff_prefix.mp leads
        rw [between_advance, Scan.ok.injEq] at accepted
        exact ⟨tail, rfl, accepted.symm⟩
    · simp at accepted
  · rintro ⟨tail, rfl, rfl⟩
    have leads : word.isPrefixOf (word ++ tail) = true :=
      List.isPrefixOf_iff_prefix.mpr (List.prefix_append word tail)
    rw [if_pos leads, between_advance]

/-! ## Numbers -/

/-- `rest` does not go on with a character that satisfies `test`. -/
def Stops (test : Char → Bool) (rest : Str) : Prop :=
  ∀ c ∈ rest.head?, test c = false

theorem takeWhile_of_stops {test : Char → Bool} {run tail : Str}
    (all : ∀ c ∈ run, test c = true) (stops : Stops test tail) :
    (run ++ tail).takeWhile test = run ∧ (run ++ tail).dropWhile test = tail := by
  rw [List.takeWhile_append_of_pos all, List.dropWhile_append_of_pos all]
  cases tail with
  | nil => simp
  | cons c tail =>
      have stopped : test c = false := stops c rfl
      simp [stopped]

theorem someDigits_sound {s : Scanner}
    (accepted : (between read rest stack found).someDigits = .ok s) :
    ∃ run tail, rest = run ++ tail ∧ IsDigits run ∧
      s = between (read ++ run) tail stack found := by
  simp only [someDigits, between_digits, decide_eq_true_eq] at accepted
  split at accepted
  · next some =>
      refine ⟨_, _, List.takeWhile_append_dropWhile.symm, ⟨some, ?_⟩,
        (Scan.ok.inj accepted).symm⟩
      exact fun c member => List.mem_takeWhile_imp member
  · simp at accepted

theorem someDigits_complete {run : Str} (digits : IsDigits run)
    (stops : Stops isDigit rest) :
    (between read (run ++ rest) stack found).someDigits =
      .ok (between (read ++ run) rest stack found) := by
  obtain ⟨taken, left⟩ := takeWhile_of_stops digits.2 stops
  simp [someDigits, between_digits, taken, left, digits.1]

theorem intPart_sound {s : Scanner}
    (accepted : (between read rest stack found).intPart = .ok s) :
    ∃ int tail, rest = int ++ tail ∧ IsInt int ∧
      s = between (read ++ int) tail stack found := by
  simp only [intPart] at accepted
  split at accepted
  · next b lead =>
      split at accepted
      · next zero =>
          subst zero
          obtain ⟨tail, rfl⟩ := (byte?_iff '0' (by decide)).mp lead
          rw [between_advance_one (by decide), Scan.ok.injEq] at accepted
          exact ⟨['0'], tail, rfl, .inl rfl, accepted.symm⟩
      · next nonzero =>
          split at accepted
          · next digit =>
              simp only [Bool.and_eq_true, decide_eq_true_eq] at digit
              have ascii : b.toNat < 0x80 :=
                Nat.lt_of_le_of_lt (UInt8.le_iff_toNat_le.mp digit.2) (by decide)
              obtain ⟨first, tail, rfl, firstAscii, rfl⟩ := byte?_ascii ascii lead
              obtain ⟨isDigit', nonzero'⟩ : isDigit first = true ∧ first ≠ '0' :=
                ascii_forall (fun c => 0x31 ≤ UInt8.ofNat c.toNat →
                    UInt8.ofNat c.toNat ≤ 0x39 → isDigit c = true ∧ c ≠ '0')
                  (by decide) firstAscii digit.1 digit.2
              rw [between_digits, Scan.ok.injEq] at accepted
              simp only [List.takeWhile_cons, List.dropWhile_cons, isDigit',
                ↓reduceIte] at accepted
              refine ⟨_ :: tail.takeWhile isDigit, tail.dropWhile isDigit,
                by simp, .inr ⟨_, _, rfl, isDigit', nonzero', ?_⟩, accepted.symm⟩
              exact fun c member => List.mem_takeWhile_imp member
          · simp at accepted
  · simp at accepted

theorem intPart_complete {int : Str} (isInt : IsInt int) (stops : Stops isDigit rest) :
    (between read (int ++ rest) stack found).intPart =
      .ok (between (read ++ int) rest stack found) := by
  obtain rfl | ⟨first, digits, rfl, digit, nonzero, all⟩ := isInt
  · have lead : (between read (['0'] ++ rest) stack found).byte? = some 0x30 :=
      (byte?_iff '0' (by decide)).mpr ⟨rest, rfl⟩
    simp only [intPart, lead, ↓reduceIte]
    rw [← between_advance_one (by decide)]
    rfl
  · have ascii := isDigit_ascii digit
    have lead : (between read (first :: digits ++ rest) stack found).byte? =
        some (UInt8.ofNat first.toNat) :=
      (byte?_iff first ⟨ascii, rfl⟩).mpr ⟨digits ++ rest, rfl⟩
    have range : UInt8.ofNat first.toNat ≠ 0x30 ∧
        (0x31 ≤ UInt8.ofNat first.toNat && UInt8.ofNat first.toNat ≤ 0x39) = true :=
      ascii_forall (fun c => isDigit c = true → c ≠ '0' →
          UInt8.ofNat c.toNat ≠ 0x30 ∧
            (0x31 ≤ UInt8.ofNat c.toNat && UInt8.ofNat c.toNat ≤ 0x39) = true)
        (by decide) ascii digit nonzero
    obtain ⟨taken, left⟩ := @takeWhile_of_stops _ (first :: digits) _
        (by simpa [digit] using all) stops
    simp only [intPart, lead, range.1, range.2, ↓reduceIte, between_digits, taken, left]

theorem fracPart_sound {s : Scanner}
    (accepted : (between read rest stack found).fracPart = .ok s) :
    ∃ frac tail, rest = frac ++ tail ∧ IsFrac frac ∧
      s = between (read ++ frac) tail stack found := by
  simp only [fracPart] at accepted
  split at accepted
  · next point =>
      obtain ⟨tail, rfl⟩ := (byte?_iff '.' (by decide)).mp point
      rw [between_advance_one (by decide)] at accepted
      obtain ⟨run, tail, rfl, digits, rfl⟩ := someDigits_sound accepted
      exact ⟨'.' :: run, tail, rfl, .inr ⟨run, rfl, digits⟩, by simp⟩
  · exact ⟨[], rest, rfl, .inl rfl, by simpa using (Scan.ok.inj accepted).symm⟩

theorem fracPart_complete {frac : Str} (isFrac : IsFrac frac)
    (stops : Stops (fun c => isDigit c || c == '.') rest) :
    (between read (frac ++ rest) stack found).fracPart =
      .ok (between (read ++ frac) rest stack found) := by
  obtain rfl | ⟨digits, rfl, isDigits⟩ := isFrac
  · have point : (between read ([] ++ rest) stack found).byte? ≠ some 0x2E := by
      rw [ne_eq, byte?_iff '.' (by decide)]
      rintro ⟨tail, rfl⟩
      exact absurd (stops '.' rfl) (by decide)
    rw [fracPart, if_neg point]
    simp
  · have point : (between read ('.' :: digits ++ rest) stack found).byte? = some 0x2E :=
      (byte?_iff '.' (by decide)).mpr ⟨digits ++ rest, rfl⟩
    rw [fracPart, if_pos point, List.cons_append, between_advance_one (by decide),
      someDigits_complete isDigits]
    · simp
    · intro c next
      have stopped := stops c next
      simp only [Bool.or_eq_false_iff] at stopped
      exact stopped.1

theorem expPart_sound {s : Scanner}
    (accepted : (between read rest stack found).expPart = .ok s) :
    ∃ exp tail, rest = exp ++ tail ∧ IsExp exp ∧
      s = between (read ++ exp) tail stack found := by
  simp only [expPart] at accepted
  split at accepted
  · next e =>
      obtain ⟨mark, tail, rfl, isMark⟩ :
          ∃ mark tail, rest = mark :: tail ∧ (mark = 'e' ∨ mark = 'E') := by
        rw [byte?_iff 'e' (by decide), byte?_iff 'E' (by decide)] at e
        rcases e with ⟨tail, rfl⟩ | ⟨tail, rfl⟩
        · exact ⟨'e', tail, rfl, .inl rfl⟩
        · exact ⟨'E', tail, rfl, .inr rfl⟩
      have ascii : mark.toNat < 0x80 := by
        rcases isMark with rfl | rfl <;> decide
      rw [between_advance_one ascii] at accepted
      split at accepted
      · next signed =>
          obtain ⟨sign, tail, rfl, isSign⟩ :
              ∃ sign tail', tail = sign :: tail' ∧ (sign = '-' ∨ sign = '+') := by
            rw [byte?_iff '+' (by decide), byte?_iff '-' (by decide)] at signed
            rcases signed with ⟨tail, rfl⟩ | ⟨tail, rfl⟩
            · exact ⟨'+', tail, rfl, .inr rfl⟩
            · exact ⟨'-', tail, rfl, .inl rfl⟩
          have ascii : sign.toNat < 0x80 := by
            rcases isSign with rfl | rfl <;> decide
          rw [between_advance_one ascii] at accepted
          obtain ⟨run, tail, rfl, digits, rfl⟩ := someDigits_sound accepted
          refine ⟨mark :: [sign] ++ run, tail, by simp,
            .inr ⟨mark, [sign], run, rfl, isMark, .inr ?_, digits⟩, by simp⟩
          simpa using isSign
      · obtain ⟨run, tail, rfl, digits, rfl⟩ := someDigits_sound accepted
        exact ⟨mark :: [] ++ run, tail, by simp,
          .inr ⟨mark, [], run, rfl, isMark, .inl rfl, digits⟩, by simp⟩
  · exact ⟨[], rest, rfl, .inl rfl, by simpa using (Scan.ok.inj accepted).symm⟩

/-- The characters that would continue a number. -/
def inNumber (c : Char) : Bool := isDigit c || c == '.' || c == 'e' || c == 'E'

theorem expPart_complete {exp : Str} (isExp : IsExp exp) (stops : Stops inNumber rest) :
    (between read (exp ++ rest) stack found).expPart =
      .ok (between (read ++ exp) rest stack found) := by
  obtain rfl | ⟨mark, sign, digits, rfl, isMark, isSign, isDigits⟩ := isExp
  · have e : ¬((between read ([] ++ rest) stack found).byte? = some 0x65 ∨
        (between read ([] ++ rest) stack found).byte? = some 0x45) := by
      rw [byte?_iff 'e' (by decide), byte?_iff 'E' (by decide)]
      rintro (⟨tail, rfl⟩ | ⟨tail, rfl⟩)
      · exact absurd (stops 'e' rfl) (by decide)
      · exact absurd (stops 'E' rfl) (by decide)
    rw [expPart, if_neg e]
    simp
  · have stopsDigit : Stops isDigit rest := by
      intro c next
      have stopped := stops c next
      simp only [inNumber, Bool.or_eq_false_iff] at stopped
      exact stopped.1.1.1
    have e : (between read (mark :: sign ++ digits ++ rest) stack found).byte? = some 0x65 ∨
        (between read (mark :: sign ++ digits ++ rest) stack found).byte? = some 0x45 := by
      rw [byte?_iff 'e' (by decide), byte?_iff 'E' (by decide)]
      rcases isMark with rfl | rfl
      · exact .inl ⟨_, rfl⟩
      · exact .inr ⟨_, rfl⟩
    have markAscii : mark.toNat < 0x80 := by
      rcases isMark with rfl | rfl <;> decide
    rw [expPart, if_pos e, List.cons_append, List.cons_append,
      between_advance_one markAscii]
    rcases isSign with rfl | isSign
    · have noSign : ¬((between (read ++ [mark]) ([] ++ digits ++ rest) stack found).byte? =
            some 0x2B ∨
          (between (read ++ [mark]) ([] ++ digits ++ rest) stack found).byte? =
            some 0x2D) := by
        obtain ⟨some, all⟩ := isDigits
        obtain ⟨first, digits, rfl⟩ := List.exists_cons_of_ne_nil some
        have digit := all first List.mem_cons_self
        rw [byte?_iff '+' (by decide), byte?_iff '-' (by decide)]
        rintro (⟨tail, same⟩ | ⟨tail, same⟩) <;>
          obtain ⟨rfl, -⟩ := List.cons.inj same <;>
          exact absurd digit (by decide)
      dsimp only
      rw [if_neg noSign, List.nil_append, someDigits_complete isDigits stopsDigit]
      simp
    · obtain ⟨sign, rfl, sign', signAscii⟩ : ∃ sign', sign = [sign'] ∧
          ((between (read ++ [mark]) (sign ++ digits ++ rest) stack found).byte? =
              some 0x2B ∨
            (between (read ++ [mark]) (sign ++ digits ++ rest) stack found).byte? =
              some 0x2D) ∧ sign'.toNat < 0x80 := by
        rw [byte?_iff '+' (by decide), byte?_iff '-' (by decide)]
        rcases isSign with rfl | rfl
        · exact ⟨'-', rfl, .inr ⟨_, rfl⟩, by decide⟩
        · exact ⟨'+', rfl, .inl ⟨_, rfl⟩, by decide⟩
      dsimp only
      rw [if_pos sign', List.append_assoc, List.singleton_append,
        between_advance_one signAscii, someDigits_complete isDigits stopsDigit]
      simp

theorem number_sound {s : Scanner}
    (accepted : (between read rest stack found).number = .ok s) :
    ∃ lexeme tail, rest = lexeme ++ tail ∧ IsNumber lexeme ∧
      s = between (read ++ lexeme) tail stack found := by
  obtain ⟨minus, tail, rfl, isMinus, signed⟩ :
      ∃ minus tail, rest = minus ++ tail ∧ (minus = [] ∨ minus = ['-']) ∧
        (if (between read rest stack found).byte? = some 0x2D then
            (between read rest stack found).advance 1
          else between read rest stack found) =
          between (read ++ minus) tail stack found := by
    split
    · next minus =>
        obtain ⟨tail, rfl⟩ := (byte?_iff '-' (by decide)).mp minus
        exact ⟨['-'], tail, rfl, .inr rfl, between_advance_one (by decide)⟩
    · exact ⟨[], rest, rfl, .inl rfl, by simp⟩
  simp only [number, signed, Scan.bind_eq_ok] at accepted
  obtain ⟨_, intOk, _, fracOk, _, expOk, final⟩ := accepted
  obtain ⟨int, tail, rfl, isInt, rfl⟩ := intPart_sound intOk
  obtain ⟨frac, tail, rfl, isFrac, rfl⟩ := fracPart_sound fracOk
  obtain ⟨exp, tail, rfl, isExp, rfl⟩ := expPart_sound expOk
  split at final
  · refine ⟨minus ++ int ++ frac ++ exp, tail, by simp,
      ⟨minus, int, frac, exp, rfl, isMinus, isInt, isFrac, isExp⟩, ?_⟩
    simpa using (Scan.ok.inj final).symm
  · simp at final

theorem isInt_ne_nil {int : Str} (isInt : IsInt int) : int ≠ [] := by
  obtain rfl | ⟨first, digits, rfl, -⟩ := isInt <;> simp

theorem number_complete {lexeme : Str} (isNumber : IsNumber lexeme)
    (stops : Stops inNumber rest) :
    (between read (lexeme ++ rest) stack found).number =
      .ok (between (read ++ lexeme) rest stack found) := by
  obtain ⟨minus, int, frac, exp, rfl, isMinus, isInt, isFrac, isExp⟩ := isNumber
  have afterFrac : Stops (fun c => isDigit c || c == '.') (exp ++ rest) := by
    obtain rfl | ⟨mark, sign, digits, rfl, isMark, -⟩ := isExp
    · intro c next
      have stopped := stops c next
      simp only [inNumber, Bool.or_eq_false_iff] at stopped ⊢
      exact stopped.1.1
    · intro c next
      obtain rfl : mark = c := by simpa using next
      rcases isMark with rfl | rfl <;> decide
  have afterInt : Stops isDigit (frac ++ (exp ++ rest)) := by
    obtain rfl | ⟨digits, rfl, -⟩ := isFrac
    · intro c next
      have stopped := afterFrac c next
      simp only [Bool.or_eq_false_iff] at stopped
      exact stopped.1
    · intro c next
      obtain rfl : '.' = c := by simpa using next
      decide
  have signed :
      (if (between read (minus ++ (int ++ (frac ++ (exp ++ rest)))) stack found).byte? =
            some 0x2D then
          (between read (minus ++ (int ++ (frac ++ (exp ++ rest)))) stack found).advance 1
        else between read (minus ++ (int ++ (frac ++ (exp ++ rest)))) stack found) =
        between (read ++ minus) (int ++ (frac ++ (exp ++ rest))) stack found := by
    rcases isMinus with rfl | rfl
    · rw [if_neg, List.nil_append, List.append_nil]
      rw [byte?_iff '-' (by decide)]
      rintro ⟨tail, same⟩
      obtain rfl | ⟨first, digits, rfl, digit, -⟩ := isInt
      · exact absurd (List.cons.inj same).1 (by decide)
      · obtain ⟨rfl, -⟩ := List.cons.inj same
        exact absurd digit (by decide)
    · rw [if_pos]
      · exact between_advance_one (by decide)
      · exact (byte?_iff '-' (by decide)).mpr ⟨_, rfl⟩
  simp only [List.append_assoc, number, signed, intPart_complete isInt afterInt,
    fracPart_complete isFrac afterFrac, expPart_complete isExp stops, Scan.ok_bind]
  rw [if_pos]
  have positive : 0 < (encode int).length := by
    rw [List.length_pos_iff, ne_eq, encode_eq_nil]
    exact isInt_ne_nil isInt
  simp only [between_pos, encode_append, List.length_append]
  omega

end Scanner

end Proxemby
