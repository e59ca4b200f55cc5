import Proxemby.Escape
import Proxemby.Lib.Rfc8259
import Proxemby.Logging.Record

/-!
# Reading records back

The fields of a text record are cut at the spaces outside quotes.  Undoing the escapes of a
field gives the key and the text of its value.
-/

namespace Proxemby.Logging

open Text Rfc8259

/-! ## Reading -/

/-- The fields of a line, cut at the spaces outside quotes; inside quotes a backslash takes the
character behind it with it. -/
def splitFields (quoted : Bool) : Str → List Str
  | [] => [[]]
  | '\\' :: c :: rest =>
      if quoted then (splitFields quoted rest).modifyHead fun field => '\\' :: c :: field
      else (splitFields quoted (c :: rest)).modifyHead ('\\' :: ·)
  | c :: rest =>
      if c = '"' then (splitFields (!quoted) rest).modifyHead (c :: ·)
      else if c = ' ' ∧ quoted = false then [] :: splitFields quoted rest
      else (splitFields quoted rest).modifyHead (c :: ·)

/-- The text that stands in quotes. -/
def unescape : Str → Str
  | '\\' :: 'n' :: rest => '\n' :: unescape rest
  | '\\' :: 'r' :: rest => '\r' :: unescape rest
  | '\\' :: 't' :: rest => '\t' :: unescape rest
  | '\\' :: 'x' :: hi :: lo :: rest =>
      Char.ofNat ((hexNumber [hi, lo]).getD 0) :: unescape rest
  | '\\' :: c :: rest => c :: unescape rest
  | c :: rest => c :: unescape rest
  | [] => []

/-- The text of a value, which may be in quotes. -/
def unquote : Str → Str
  | '"' :: quoted => unescape quoted.dropLast
  | plain => plain

/-- The key and the text of the value of a field. -/
def readField (field : Str) : Option (Str × Str) :=
  (splitOnce '=' field).map fun halves => (halves.1, unquote halves.2)

/-- The fields of a text record. -/
def readRecord (record : Str) : List (Option (Str × Str)) :=
  (splitFields false record).map readField

/-! ## Escapes -/

/-- A character that stands for itself in quotes. -/
def IsPlain (c : Char) : Prop := c ≠ '"' ∧ c ≠ '\\' ∧ 0x20 ≤ c.toNat

instance (c : Char) : Decidable (IsPlain c) :=
  inferInstanceAs (Decidable (c ≠ '"' ∧ c ≠ '\\' ∧ 0x20 ≤ c.toNat))

/-- The escape of a control character has two digits that denote it. -/
theorem padded_control {c : Char} (control : isControl c = true) :
    ∃ hi lo, padded 16 2 c.toNat = [hi, lo] ∧ hexNumber [hi, lo] = some c.toNat ∧
      IsPlain hi ∧ IsPlain lo := by
  have small : c.toNat < 0xA0 := by
    simp only [isControl, Bool.or_eq_true, Bool.and_eq_true, decide_eq_true_eq] at control
    omega
  have each : ∀ n < 0xA0, (padded 16 2 n).length = 2 ∧ hexNumber (padded 16 2 n) = some n ∧
      ∀ d ∈ padded 16 2 n, IsPlain d := by decide +kernel
  obtain ⟨length, value, plain⟩ := each c.toNat small
  obtain ⟨hi, lo, digits⟩ := List.length_eq_two.mp length
  rw [digits] at value plain
  exact ⟨hi, lo, digits, value, plain hi (by simp), plain lo (by simp)⟩

/-- The ways to write a character in quotes. -/
inductive InQuotes (c : Char) : Str → Prop where
  | plain : IsPlain c → InQuotes c [c]
  | short {e : Char} : 0x20 ≤ e.toNat →
      (∀ rest, unescape ('\\' :: e :: rest) = c :: unescape rest) → InQuotes c ['\\', e]
  | octet {hi lo : Char} : hexNumber [hi, lo] = some c.toNat → IsPlain hi → IsPlain lo →
      InQuotes c ['\\', 'x', hi, lo]

theorem textChar_inQuotes (c : Char) : InQuotes c (textChar c) := by
  rw [textChar]
  split
  · next quote =>
      subst quote
      exact .short (by decide) fun _ => rfl
  · next notQuote =>
      split
      · next backslash =>
          subst backslash
          exact .short (by decide) fun _ => rfl
      · next notBackslash =>
          split
          · next newline =>
              subst newline
              exact .short (by decide) fun _ => rfl
          · split
            · next carriage =>
                subst carriage
                exact .short (by decide) fun _ => rfl
            · split
              · next tab =>
                  subst tab
                  exact .short (by decide) fun _ => rfl
              · split
                · next control =>
                    obtain ⟨hi, lo, digits, value, hiPlain, loPlain⟩ := padded_control control
                    rw [digits]
                    exact .octet value hiPlain loPlain
                · next control =>
                    refine .plain ⟨notQuote, notBackslash, ?_⟩
                    simp only [isControl, Bool.or_eq_true, Bool.and_eq_true, decide_eq_true_eq,
                      not_or] at control
                    omega

theorem unescape_cons {c : Char} (plain : c ≠ '\\') (rest : Str) :
    unescape (c :: rest) = c :: unescape rest := by
  rw [unescape.eq_def]
  split <;> simp_all

/-- What stands for a character in quotes is read as that character. -/
theorem InQuotes.unescape {c : Char} {text : Str} (inQuotes : InQuotes c text) (rest : Str) :
    unescape (text ++ rest) = c :: Logging.unescape rest := by
  cases inQuotes with
  | plain self => exact unescape_cons self.2.1 rest
  | short _ reads => exact reads rest
  | octet value =>
      rw [List.cons_append, List.cons_append, List.cons_append, List.singleton_append,
        Logging.unescape, value, Option.getD_some, Char.ofNat_toNat]

theorem unescape_textChars (s : Str) : unescape (s.flatMap textChar) = s := by
  induction s with
  | nil => rfl
  | cons c s ih => rw [List.flatMap_cons, (textChar_inQuotes c).unescape, ih]

/-! ## Fields -/

theorem splitFields_cons {quoted : Bool} {c : Char} (notEscape : c ≠ '\\' ∨ quoted = false)
    (notQuote : c ≠ '"') (notCut : c ≠ ' ' ∨ quoted = true) (rest : Str) :
    splitFields quoted (c :: rest) = (splitFields quoted rest).modifyHead (c :: ·) := by
  rw [splitFields.eq_def]
  split
  · next same => cases same
  · next c' rest' same =>
      obtain ⟨rfl, rfl⟩ := List.cons.inj same
      rw [notEscape.resolve_left (not_not_intro rfl)]
      rfl
  · next same =>
      obtain ⟨rfl, rfl⟩ := List.cons.inj same
      rw [if_neg notQuote, if_neg]
      rintro ⟨rfl, rfl⟩
      rcases notCut with space | quoted
      · exact space rfl
      · cases quoted

theorem splitFields_quote (quoted : Bool) (rest : Str) :
    splitFields quoted ('"' :: rest) = (splitFields (!quoted) rest).modifyHead ('"' :: ·) := by
  cases rest <;> rfl

/-- A text inside quotes has no place to cut. -/
theorem InQuotes.splitFields {c : Char} {text : Str} (inQuotes : InQuotes c text) (rest : Str) :
    splitFields true (text ++ rest) =
      (Logging.splitFields true rest).modifyHead (text ++ ·) := by
  cases inQuotes with
  | plain self => exact splitFields_cons (.inl self.2.1) self.1 (.inr rfl) rest
  | short _ _ => rfl
  | @octet hi lo _ hiPlain loPlain =>
      have digits := splitFields_cons (.inl hiPlain.2.1) hiPlain.1 (.inr rfl) (lo :: rest)
      rw [splitFields_cons (.inl loPlain.2.1) loPlain.1 (.inr rfl), List.modifyHead_modifyHead]
        at digits
      change (Logging.splitFields true (hi :: lo :: rest)).modifyHead _ = _
      rw [digits, List.modifyHead_modifyHead]
      rfl

theorem InQuotes.visible {c : Char} {text : Str} (inQuotes : InQuotes c text) :
    ∀ d ∈ text, 0x20 ≤ d.toNat := by
  cases inQuotes with
  | plain self => simpa using self.2.2
  | short visible _ => simpa using visible
  | octet _ hiPlain loPlain => simpa using ⟨hiPlain.2.2, loPlain.2.2⟩

theorem splitFields_textChars (s rest : Str) :
    splitFields true (s.flatMap textChar ++ rest) =
      (splitFields true rest).modifyHead (s.flatMap textChar ++ ·) := by
  induction s with
  | nil => exact (congrFun List.modifyHead_id _).symm
  | cons c s ih =>
      rw [List.flatMap_cons, List.append_assoc, (textChar_inQuotes c).splitFields, ih,
        List.modifyHead_modifyHead]
      congr 1
      funext field
      exact (List.append_assoc ..).symm

/-! ## What is written for a value -/

/-- What is written for a text: it is not cut, it is read as the text, and it has no control
characters of ASCII. -/
structure Written (raw text : Str) : Prop where
  whole : ∀ rest, splitFields false (raw ++ rest) =
    (splitFields false rest).modifyHead (raw ++ ·)
  reads : unquote raw = text
  visible : ∀ c ∈ raw, 0x20 ≤ c.toNat

/-- Text without blanks and quotes is not cut. -/
theorem splitFields_bare {text : Str} (bare : ∀ c ∈ text, c ≠ '"' ∧ c ≠ ' ') (rest : Str) :
    splitFields false (text ++ rest) = (splitFields false rest).modifyHead (text ++ ·) := by
  induction text with
  | nil => exact (congrFun List.modifyHead_id _).symm
  | cons c text ih =>
      obtain ⟨here, later⟩ := List.forall_mem_cons.mp bare
      rw [List.cons_append, splitFields_cons (.inr rfl) here.1 (.inl here.2), ih later,
        List.modifyHead_modifyHead]
      rfl

/-- Bare text stands for itself. -/
theorem written_bare {text : Str}
    (bare : ∀ c ∈ text, c ≠ '"' ∧ c ≠ ' ' ∧ 0x20 ≤ c.toNat) : Written text text where
  whole := splitFields_bare fun c member => ⟨(bare c member).1, (bare c member).2.1⟩
  reads := by
    cases text with
    | nil => rfl
    | cons c text =>
        have notQuote := (bare c List.mem_cons_self).1
        rw [unquote]
        exact fun quoted same => notQuote (List.cons.inj same).1
  visible c member := (bare c member).2.2

/-- A string is read back from what is written for it, in quotes or not. -/
theorem written_string (s : Str) : Written (pushTextString s) s := by
  rw [pushTextString]
  split
  · next plain =>
      simp only [needsQuoting, Bool.not_or, Bool.and_eq_true, Bool.not_eq_true',
        List.any_eq_false, Bool.or_eq_true, not_or, beq_iff_eq] at plain
      refine written_bare fun c member => ?_
      obtain ⟨⟨⟨⟨space, -⟩, quote⟩, control⟩, -⟩ := plain.2 c member
      refine ⟨quote, space, ?_⟩
      simp only [isControl, Bool.or_eq_true, Bool.and_eq_true, decide_eq_true_eq, not_or] at control
      omega
  · refine ⟨fun rest => ?_, ?_, fun c member => ?_⟩
    · change splitFields false ('"' :: ((s.flatMap textChar ++ ['"']) ++ rest)) = _
      rw [List.append_assoc, List.singleton_append, splitFields_quote, Bool.not_false,
        splitFields_textChars, splitFields_quote, Bool.not_true,
        List.modifyHead_modifyHead, List.modifyHead_modifyHead]
      congr 1
      funext field
      simp
    · change unescape (s.flatMap textChar ++ ['"']).dropLast = s
      rw [List.dropLast_concat, unescape_textChars]
    · have quote : (0x20 : Nat) ≤ '"'.toNat := by decide
      rcases List.mem_append.mp member with front | back
      · rcases List.mem_cons.mp front with rfl | inside
        · exact quote
        · obtain ⟨d, -, inChar⟩ := List.mem_flatMap.mp inside
          exact (textChar_inQuotes d).visible c inChar
      · rwa [List.mem_singleton.mp back]

/-- Letters, digits and what times and numbers have between them. -/
def isBareChar (c : Char) : Bool := c.isAlphanum || c == '-' || c == ':' || c == '.'

theorem written_bareChars {text : Str} (bare : ∀ c ∈ text, isBareChar c = true) :
    Written text text := by
  refine written_bare fun c member => ?_
  have bareChar := bare c member
  refine ⟨?_, ?_, ?_⟩
  · rintro rfl
    exact absurd bareChar (by decide)
  · rintro rfl
    exact absurd bareChar (by decide)
  · by_contra low
    have each : ∀ n < 0x20, isBareChar (Char.ofNat n) = false := by decide
    have control := each c.toNat (Nat.lt_of_not_le low)
    rw [Char.ofNat_toNat, bareChar] at control
    cases control

theorem isBareChar_of_isDigit {c : Char} (digit : c.isDigit = true) : isBareChar c = true := by
  simp [isBareChar, Char.isAlphanum, digit]

theorem bare_toDigits (n : Nat) : ∀ c ∈ Nat.toDigits 10 n, isBareChar c = true :=
  fun _ member => isBareChar_of_isDigit
    (Nat.isDigit_of_mem_toDigits (by decide) (by decide) member)

theorem bare_padded (width n : Nat) : ∀ c ∈ padded 10 width n, isBareChar c = true := by
  intro c member
  rcases List.mem_append.mp member with zero | digit
  · rw [(List.mem_replicate.mp zero).2]
    decide
  · exact bare_toDigits n c digit

theorem bare_append {left right : Str} (leftBare : ∀ c ∈ left, isBareChar c = true)
    (rightBare : ∀ c ∈ right, isBareChar c = true) : ∀ c ∈ left ++ right, isBareChar c = true :=
  fun c member => (List.mem_append.mp member).elim (leftBare c) (rightBare c)

theorem bare_cons {c : Char} {text : Str} (here : isBareChar c = true)
    (bare : ∀ c ∈ text, isBareChar c = true) : ∀ d ∈ c :: text, isBareChar d = true :=
  List.forall_mem_cons.mpr ⟨here, bare⟩

theorem bare_intText (n : Int) : ∀ c ∈ intText n, isBareChar c = true := by
  cases n with
  | ofNat n => exact bare_toDigits n
  | negSucc n => exact bare_cons (by decide) (bare_toDigits (n + 1))

theorem bare_formatDuration (nanos : Nat) : ∀ c ∈ formatDuration nanos, isBareChar c = true := by
  have unit {n : Nat} {c : Char} (bare : isBareChar c = true) :
      ∀ d ∈ Nat.toDigits 10 n ++ [c], isBareChar d = true :=
    bare_append (bare_toDigits n) (by simpa using bare)
  rw [formatDuration]
  dsimp only
  split
  · decide
  · split
    · exact bare_append (bare_toDigits _) (by decide)
    · refine bare_append (bare_append ?_ ?_) ?_
      · split
        · exact unit (by decide)
        · simp
      · split
        · exact unit (by decide)
        · simp
      · split
        · exact unit (by decide)
        · refine bare_append (bare_append (bare_toDigits _) (bare_cons (by decide) ?_)) (by decide)
          intro c member
          exact bare_padded 3 _ c ((List.rdropWhile_prefix _ _).subset member)

theorem bare_timestamp (year month day hour minute second millis : Nat) :
    ∀ c ∈ timestamp year month day hour minute second millis, isBareChar c = true := by
  have part {width n : Nat} {rest : Str} (bare : ∀ c ∈ rest, isBareChar c = true) :
      ∀ c ∈ padded 10 width n ++ rest, isBareChar c = true :=
    bare_append (bare_padded width n) bare
  simp only [timestamp, List.append_assoc, List.cons_append]
  iterate 6 refine part (bare_cons (by decide) ?_)
  exact part (by decide)

theorem bare_formatTime (time : Int) : ∀ c ∈ formatTime time, isBareChar c = true := by
  intro c
  rw [formatTime]
  exact bare_timestamp _ _ _ _ _ _ _ c

namespace Value

/-- The text of a value in a text record. -/
def text : Value → Str
  | .str s => s
  | .int i => intText i
  | .bool b => boolText b
  | .list items => '[' :: [' '].intercalate items ++ [']']
  | .duration d => formatDuration d

theorem written (value : Value) : Written (pushTextValue value) value.text := by
  cases value with
  | str s => exact written_string s
  | int i => exact written_bareChars (bare_intText i)
  | bool b => cases b <;> exact written_bareChars (by decide)
  | list items => exact written_string _
  | duration d => exact written_bareChars (bare_formatDuration d)

end Value

/-! ## Records -/

namespace Key

theorem bare (key : Key) : ∀ c ∈ key.text, c ≠ '"' ∧ c ≠ ' ' ∧ c ≠ '=' ∧ 0x20 ≤ c.toNat := by
  intro c member
  have keyChar := key.chars.2 c member
  refine ⟨?_, ?_, ?_, ?_⟩
  · rintro rfl
    exact absurd keyChar (by decide)
  · rintro rfl
    exact absurd keyChar (by decide)
  · rintro rfl
    exact absurd keyChar (by decide)
  · by_contra low
    have each : ∀ n < 0x20, isKeyChar (Char.ofNat n) = false := by decide
    have control := each c.toNat (Nat.lt_of_not_le low)
    rw [Char.ofNat_toNat, keyChar] at control
    cases control

end Key

/-- A field of a record, and what is read in it. -/
structure IsField (field : Str) (read : Str × Str) : Prop where
  whole : ∀ rest, splitFields false (field ++ rest) =
    (splitFields false rest).modifyHead (field ++ ·)
  reads : readField field = some read
  visible : ∀ c ∈ field, 0x20 ≤ c.toNat

theorem isField {key raw text : Str}
    (bare : ∀ c ∈ key, c ≠ '"' ∧ c ≠ ' ' ∧ c ≠ '=' ∧ 0x20 ≤ c.toNat)
    (written : Written raw text) : IsField (key ++ '=' :: raw) (key, text) where
  whole rest := by
    have bareKey : ∀ c ∈ key ++ ['='], c ≠ '"' ∧ c ≠ ' ' := by
      intro c member
      rcases List.mem_append.mp member with inKey | equals
      · exact ⟨(bare c inKey).1, (bare c inKey).2.1⟩
      · rw [List.mem_singleton.mp equals]
        decide
    rw [List.append_cons, List.append_assoc, splitFields_bare bareKey, written.whole,
      List.modifyHead_modifyHead]
    congr 1
    funext field
    simp
  reads := by
    have fresh : '=' ∉ key := fun member => (bare _ member).2.2.1 rfl
    rw [readField, splitOnce_append fresh, Option.map_some, written.reads]
  visible c member := by
    rcases List.mem_append.mp member with inKey | inRaw
    · exact (bare c inKey).2.2.2
    · rcases List.mem_cons.mp inRaw with rfl | inRaw
      · decide
      · exact written.visible c inRaw

/-- Fields with a blank in front of each but the first. -/
def joinFields (first : Str) (fields : List Str) : Str := first ++ fields.flatMap (' ' :: ·)

theorem splitFields_space (rest : Str) :
    splitFields false (' ' :: rest) = [] :: splitFields false rest := by
  cases rest <;> rfl

/-- Fields and what is read in them. -/
abbrev AreFields (fields : List Str) (reads : List (Str × Str)) : Prop :=
  List.Forall₂ IsField fields reads

section Join

variable {first : Str} {fields : List Str} {reads : List (Str × Str)}

theorem map_readField (are : AreFields fields reads) :
    fields.map readField = reads.map some := by
  induction are with
  | nil => rfl
  | cons isField _ ih => rw [List.map_cons, List.map_cons, isField.reads, ih]

theorem visible_fields (are : AreFields fields reads) :
    ∀ field ∈ fields, ∀ c ∈ field, 0x20 ≤ c.toNat := by
  induction are with
  | nil => simp
  | cons isField _ ih => exact List.forall_mem_cons.mpr ⟨isField.visible, ih⟩

theorem splitFields_join (are : AreFields (first :: fields) reads) :
    splitFields false (joinFields first fields) = first :: fields := by
  induction fields generalizing first reads with
  | nil =>
      cases are with
      | cons isField _ =>
          rw [joinFields, List.flatMap_nil, isField.whole]
          simp [splitFields]
  | cons second fields ih =>
      cases are with
      | cons isField are =>
          rw [joinFields, List.flatMap_cons, isField.whole, List.cons_append, splitFields_space,
            ← joinFields, ih are, List.modifyHead_cons, List.append_nil]

/-- A record is read field by field. -/
theorem readRecord_join (are : AreFields (first :: fields) reads) :
    readRecord (joinFields first fields) = reads.map some := by
  rw [readRecord, splitFields_join are, map_readField are]

theorem visible_join (are : AreFields (first :: fields) reads) :
    ∀ c ∈ joinFields first fields, 0x20 ≤ c.toNat := by
  have each := visible_fields are
  intro c member
  rcases List.mem_append.mp member with inFirst | later
  · exact each first List.mem_cons_self c inFirst
  · obtain ⟨field, inFields, inside⟩ := List.mem_flatMap.mp later
    rcases List.mem_cons.mp inside with rfl | inField
    · decide
    · exact each field (List.mem_cons_of_mem _ inFields) c inField

end Join

/-! ## The line of a logger -/

namespace Logger

variable (logger : Logger) {time : Option Str} (level : Level) (msg : Str) (attrs : Attrs)

/-- What a reader finds in a text record. -/
def fields (time : Option Str) : List (Str × Str) :=
  (time.map fun time => ("time".toList, time)).toList ++
    ("level".toList, level.asStr) :: ("msg".toList, msg) ::
      (logger.attrs ++ attrs).map fun attr => (attr.1.text, attr.2.text)

theorem areFields_attrs (attrs : Attrs) :
    AreFields (attrs.map fun attr => attr.1.text ++ '=' :: pushTextValue attr.2)
      (attrs.map fun attr => (attr.1.text, attr.2.text)) := by
  induction attrs with
  | nil => exact .nil
  | cons attr attrs ih => exact .cons (isField attr.1.bare attr.2.written) ih

/-- A text record is made of the fields. -/
theorem textLine_fields (bare : ∀ text ∈ time, ∀ c ∈ text, isBareChar c = true) :
    ∃ first fields, logger.textLine time level msg attrs = joinFields first fields ∧
      AreFields (first :: fields) (logger.fields level msg attrs time) := by
  have levelField : IsField ("level".toList ++ '=' :: level.asStr)
      ("level".toList, level.asStr) :=
    isField (by decide) (written_bareChars (by cases level <;> decide))
  have msgField : IsField ("msg".toList ++ '=' :: pushTextString msg) ("msg".toList, msg) :=
    isField (by decide) (written_string msg)
  have later := List.Forall₂.cons msgField (areFields_attrs (logger.attrs ++ attrs))
  have attrTexts : (logger.attrs ++ attrs).flatMap (fun attr =>
        ' ' :: attr.1.text ++ '=' :: pushTextValue attr.2) =
      ((logger.attrs ++ attrs).map fun attr =>
        attr.1.text ++ '=' :: pushTextValue attr.2).flatMap (' ' :: ·) := by
    rw [List.flatMap_map]
    rfl
  have timeText : "time=".toList = "time".toList ++ ['='] := by decide
  have levelText : "level=".toList = "level".toList ++ ['='] := by decide
  have msgText : " msg=".toList = ' ' :: "msg".toList ++ ['='] := by decide
  cases time with
  | none =>
      refine ⟨_, _, ?_, List.Forall₂.cons levelField later⟩
      unfold textLine
      rw [attrTexts, joinFields, List.flatMap_cons, levelText, msgText]
      simp only [List.append_assoc, List.cons_append, List.nil_append]
  | some time =>
      have timeField : IsField ("time".toList ++ '=' :: time) ("time".toList, time) :=
        isField (by decide) (written_bareChars (bare time rfl))
      refine ⟨_, _, ?_, List.Forall₂.cons timeField (List.Forall₂.cons levelField later)⟩
      unfold textLine
      rw [attrTexts, joinFields, List.flatMap_cons, List.flatMap_cons, timeText, levelText,
        msgText]
      simp only [List.append_assoc, List.cons_append, List.nil_append]

end Logger

end Proxemby.Logging
