import Proxemby.Util

/-!
# Escapes and their decoding

`percentDecode` undoes every writer that turns an octet into itself or into its percent
escape.  `escapePath` is one; it keeps slashes and writes no other delimiter of a URL.
-/

namespace Proxemby

open Utf8 Text

/-- A property of the 256 octets, checked one by one. -/
theorem octet_forall (holds : UInt8 → Prop) (each : ∀ n < 256, holds (UInt8.ofNat n))
    (b : UInt8) : holds b := by
  have found := each b.toNat b.toNat_lt
  rwa [UInt8.ofNat_toNat] at found

/-! ## Decoding -/

theorem percentBytes_plain {plusAsSpace : Bool} {b : UInt8} (plain : b ≠ 0x25)
    (noPlus : (b = 0x2B && plusAsSpace) = false) (rest : Bytes) :
    percentBytes plusAsSpace (b :: rest) = (percentBytes plusAsSpace rest).map (b :: ·) := by
  rw [percentBytes.eq_def]
  simp only [if_neg plain, noPlus, Bool.false_eq_true, ↓reduceIte]

/-- Octets without an escape stand for themselves. -/
theorem percentBytes_self {plusAsSpace : Bool} {bytes : Bytes} (percent : (0x25 : UInt8) ∉ bytes)
    (plus : plusAsSpace = true → (0x2B : UInt8) ∉ bytes) :
    percentBytes plusAsSpace bytes = some bytes := by
  induction bytes with
  | nil => rfl
  | cons b bytes ih =>
      simp only [List.mem_cons, not_or] at percent plus
      rw [percentBytes_plain (Ne.symm percent.1) ?_, ih percent.2 fun space => (plus space).2]
      · rfl
      · cases plusAsSpace with
        | false => simp
        | true => simpa using Ne.symm (plus rfl).1

theorem percentBytes_percentByte (plusAsSpace : Bool) (b : UInt8) (rest : Bytes) :
    percentBytes plusAsSpace (encode (percentByte b) ++ rest) =
      (percentBytes plusAsSpace rest).map (b :: ·) := by
  have octets : encode (percentByte b) = [0x25, UInt8.ofNat (hexDigit (b >>> 4)).toNat,
      UInt8.ofNat (hexDigit (b &&& 15)).toNat] :=
    octet_forall (fun b => encode (percentByte b) =
      [0x25, UInt8.ofNat (hexDigit (b >>> 4)).toNat,
        UInt8.ofNat (hexDigit (b &&& 15)).toNat]) (by decide +kernel) b
  have digits : unhex (UInt8.ofNat (hexDigit (b >>> 4)).toNat) = some (b >>> 4) ∧
      unhex (UInt8.ofNat (hexDigit (b &&& 15)).toNat) = some (b &&& 15) ∧
      (b >>> 4) <<< 4 ||| (b &&& 15) = b :=
    octet_forall (fun b =>
      unhex (UInt8.ofNat (hexDigit (b >>> 4)).toNat) = some (b >>> 4) ∧
        unhex (UInt8.ofNat (hexDigit (b &&& 15)).toNat) = some (b &&& 15) ∧
        (b >>> 4) <<< 4 ||| (b &&& 15) = b) (by decide +kernel) b
  obtain ⟨hi, lo, whole⟩ := digits
  rw [octets]
  simp only [List.cons_append, List.nil_append, percentBytes, ↓reduceIte, hi, lo,
    Option.bind_eq_bind, Option.bind_some, whole, Option.pure_def]
  cases percentBytes plusAsSpace rest <;> rfl

/-- Whether an ASCII character occurs in a text can be read off its octets. -/
theorem mem_encode_ascii {c : Char} (ascii : c.toNat < 0x80) {text : Str} :
    UInt8.ofNat c.toNat ∈ encode text ↔ c ∈ text := by
  have small : (UInt8.ofNat c.toNat).toNat = c.toNat :=
    UInt8.toNat_ofNat_of_lt (Nat.lt_trans ascii (by decide))
  have any := any_encode (fun b => b == UInt8.ofNat c.toNat)
    (by
      intro b same
      rw [eq_of_beq same, small]
      exact ascii) text
  rw [Bool.eq_iff_iff, List.any_eq_true, List.any_eq_true] at any
  constructor
  · intro member
    obtain ⟨d, inText, found⟩ := any.mp ⟨_, member, beq_self_eq_true _⟩
    simp only [Bool.and_eq_true, decide_eq_true_eq, beq_iff_eq] at found
    have same := congrArg UInt8.toNat found.2
    have size : (UInt8.ofNat d.toNat).toNat = d.toNat :=
      UInt8.toNat_ofNat_of_lt (Nat.lt_trans found.1 (by decide))
    rw [small, size] at same
    rwa [← Char.toNat_inj.mp same]
  · intro member
    obtain ⟨b, inOctets, found⟩ := any.mpr ⟨c, member, by simp [ascii]⟩
    rwa [← eq_of_beq found]

/-- `percentDecode` gives the text whose octets the escapes denote. -/
theorem percentDecode_of_percentBytes {plusAsSpace : Bool} {source text : Str}
    (octets : percentBytes plusAsSpace (encode source) = some (encode text)) :
    percentDecode source plusAsSpace = some text := by
  rw [percentDecode]
  split
  · next plain =>
      simp only [Bool.not_eq_true', Bool.or_eq_false_iff, List.contains_eq_mem,
        decide_eq_false_iff_not, Bool.and_eq_false_iff] at plain
      rw [percentBytes_self (mt (mem_encode_ascii (c := '%') (by decide)).mp plain.1) ?_,
        Option.some.injEq] at octets
      · rw [encode_injective octets]
      · intro space member
        have inText := (mem_encode_ascii (c := '+') (by decide)).mp member
        rcases plain.2 with off | absent
        · rw [space] at off
          cases off
        · exact absent inText
  · rw [octets, Option.map_some, decode_encode]
    rfl

/-! ## Escaping -/

@[simp] theorem escapeWith_append (one : UInt8 → Str) (left right : Str) :
    escapeWith one (left ++ right) = escapeWith one left ++ escapeWith one right := by
  simp [escapeWith]

/-- The escapes of a writer denote the octets of the text, when they are read back one
octet at a time. -/
theorem percentBytes_escapeWith {plusAsSpace : Bool} {one : UInt8 → Str}
    (reads : ∀ b rest, percentBytes plusAsSpace (encode (one b) ++ rest) =
      (percentBytes plusAsSpace rest).map (b :: ·)) (text : Str) :
    percentBytes plusAsSpace (encode (escapeWith one text)) = some (encode text) := by
  rw [escapeWith]
  induction encode text with
  | nil => rfl
  | cons b bytes ih => rw [List.flatMap_cons, encode_append, reads, ih, Option.map_some]

theorem percentBytes_pathByte (b : UInt8) (rest : Bytes) :
    percentBytes false (encode (pathByte b) ++ rest) =
      (percentBytes false rest).map (b :: ·) := by
  rw [pathByte]
  split
  · next kept =>
      have self : isPathByte b = true →
          encode [Char.ofNat b.toNat] = [b] ∧ b ≠ 0x25 :=
        octet_forall (fun b => isPathByte b = true →
          encode [Char.ofNat b.toNat] = [b] ∧ b ≠ 0x25) (by decide +kernel) b
      rw [(self kept).1, List.singleton_append]
      exact percentBytes_plain (self kept).2 (by simp) rest
  · exact percentBytes_percentByte false b rest

theorem percentBytes_escapePath (text : Str) :
    percentBytes false (encode (escapePath text)) = some (encode text) :=
  percentBytes_escapeWith percentBytes_pathByte text

theorem percentDecode_escapePath (text : Str) :
    percentDecode (escapePath text) false = some text :=
  percentDecode_of_percentBytes (percentBytes_escapePath text)

@[simp] theorem escapePath_append (left right : Str) :
    escapePath (left ++ right) = escapePath left ++ escapePath right :=
  escapeWith_append pathByte left right

/-- A character that `escapePath` keeps. -/
def isPathChar (c : Char) : Bool := decide (c.toNat < 0x80) && isPathByte (UInt8.ofNat c.toNat)

theorem escapePath_cons (c : Char) (text : Str) :
    escapePath (c :: text) = escapePath [c] ++ escapePath text :=
  escapePath_append [c] text

theorem escapePath_singleton {c : Char} (kept : isPathChar c = true) : escapePath [c] = [c] := by
  rw [isPathChar, Bool.and_eq_true, decide_eq_true_eq] at kept
  have size : (UInt8.ofNat c.toNat).toNat = c.toNat :=
    UInt8.toNat_ofNat_of_lt (Nat.lt_trans kept.1 (by decide))
  rw [escapePath, escapeWith, encode_cons, encodeChar_ascii kept.1, encode_nil, List.append_nil,
    List.flatMap_singleton, pathByte, if_pos kept.2, size, Char.ofNat_toNat]

theorem escapePath_self {text : Str} (kept : ∀ c ∈ text, isPathChar c = true) :
    escapePath text = text := by
  induction text with
  | nil => rfl
  | cons c text ih =>
      simp only [List.mem_cons, forall_eq_or_imp] at kept
      rw [escapePath_cons, escapePath_singleton kept.1, ih kept.2, List.singleton_append]

/-- The characters that `escapePath` writes. -/
theorem escapePath_chars (text : Str) :
    ∀ c ∈ escapePath text, isPathChar c = true ∨ c = '%' := by
  intro c member
  rw [escapePath, escapeWith, List.mem_flatMap] at member
  obtain ⟨b, -, inByte⟩ := member
  have each : ∀ c ∈ pathByte b, isPathChar c = true ∨ c = '%' :=
    octet_forall (fun b => ∀ c ∈ pathByte b, isPathChar c = true ∨ c = '%')
      (by decide +kernel) b
  exact each c inByte

/-- A character that stands in the escape of its own octet alone is written for itself
only. -/
theorem mem_escapePath {c : Char} (ascii : c.toNat < 0x80)
    (each : ∀ b, c ∈ pathByte b ↔ b = UInt8.ofNat c.toNat) {text : Str} :
    c ∈ escapePath text ↔ c ∈ text := by
  rw [escapePath, escapeWith, List.mem_flatMap]
  simp only [each, exists_eq_right]
  exact mem_encode_ascii ascii

theorem slash_mem_escapePath {text : Str} : '/' ∈ escapePath text ↔ '/' ∈ text :=
  mem_escapePath (by decide) (octet_forall _ (by decide +kernel))

theorem at_mem_escapePath {text : Str} : '@' ∈ escapePath text ↔ '@' ∈ text :=
  mem_escapePath (by decide) (octet_forall _ (by decide +kernel))

/-- `escapePath` changes a text only by escapes. -/
theorem escapePath_of_noPercent {text : Str} (plain : '%' ∉ escapePath text) :
    escapePath text = text := by
  have decoded := percentDecode_escapePath text
  rw [percentDecode, if_pos (by simp [plain])] at decoded
  exact Option.some.inj decoded

end Proxemby
