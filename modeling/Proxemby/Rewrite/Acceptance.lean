import Proxemby.Rewrite.Completeness

/-!
# Which texts the scanner accepts

The scanner accepts JSON texts nested at most `maxDepth` deep, and one kind of
text more: the digits of a Unicode escape go through the integer parser of the
standard library, which takes a plus sign in front of them.
-/

namespace Proxemby

open Utf8 Rfc8259

/-- A text of the JSON grammar in which no value has more than `maxDepth`
containers around it.  `Hex` are the digits of a Unicode escape; RFC 8259 has
`IsHex4`. -/
def IsJson (Hex : Str → Prop) (text : Str) : Prop :=
  ∃ pieces document, text = Piece.flat pieces ∧
    JsonText (fun source _ => Chars Hex source) pieces document ∧
    document.enclosing ≤ maxDepth

/-- Some Unicode escape of the text has a plus sign for its first digit. -/
def hasPlusEscape : Str → Bool
  | '\\' :: 'u' :: '+' :: _ => true
  | '\\' :: _ :: rest => hasPlusEscape rest
  | _ :: rest => hasPlusEscape rest
  | [] => false

@[simp] theorem hasPlusEscape_nil : hasPlusEscape [] = false := rfl

theorem hasPlusEscape_cons {c : Char} (noEscape : c ≠ '\\') (rest : Str) :
    hasPlusEscape (c :: rest) = hasPlusEscape rest := by
  rw [hasPlusEscape]
  · rintro rest' rfl
    exact absurd rfl noEscape
  · rintro d rest' rfl
    exact absurd rfl noEscape

theorem hasPlusEscape_short {e : Char} (noUnicode : e ≠ 'u') (rest : Str) :
    hasPlusEscape ('\\' :: e :: rest) = hasPlusEscape rest := by
  rw [hasPlusEscape]
  rintro rest' rfl
  exact absurd rfl noUnicode

theorem hasPlusEscape_plain {text : Str} (plain : '\\' ∉ text) (rest : Str) :
    hasPlusEscape (text ++ rest) = hasPlusEscape rest := by
  induction text with
  | nil => rfl
  | cons c text ih =>
      simp only [List.mem_cons, not_or] at plain
      rw [List.cons_append, hasPlusEscape_cons (Ne.symm plain.1), ih plain.2]

theorem hasPlusEscape_hex {digits : Str} (hex : IsHex4 digits) (rest : Str) :
    hasPlusEscape ('\\' :: 'u' :: digits ++ rest) = hasPlusEscape rest := by
  obtain ⟨four, number⟩ := hex
  obtain ⟨n, number⟩ := Option.isSome_iff_exists.mp number
  have all := hexNumber_digits number
  obtain ⟨d, digits, rfl⟩ := List.exists_cons_of_length_eq_add_one four
  have noPlus : d ≠ '+' := by
    rintro rfl
    exact absurd (all '+' List.mem_cons_self) (by decide)
  have plain : '\\' ∉ d :: digits := fun member => absurd (all _ member) (by decide)
  have stepped : hasPlusEscape ('\\' :: 'u' :: d :: digits ++ rest) =
      hasPlusEscape (d :: digits ++ rest) := by
    simp only [List.cons_append]
    rw [hasPlusEscape]
    rintro rest' - equal
    exact noPlus (List.cons.inj equal).1
  rw [stepped, hasPlusEscape_plain plain]

/-- A literal of RFC 8259 has no such escape. -/
theorem hasPlusEscape_chars {source : Str} (chars : Chars IsHex4 source) (rest : Str) :
    hasPlusEscape (source ++ rest) = hasPlusEscape rest := by
  induction chars with
  | nil => rfl
  | unescaped plain _ ih => rw [List.cons_append, hasPlusEscape_cons plain.2.2, ih]
  | @short e source known _ ih =>
      obtain ⟨c, known⟩ := Option.isSome_iff_exists.mp known
      rw [List.cons_append, List.cons_append,
        hasPlusEscape_short (Scanner.shortEscape_ascii known).2, ih]
  | unicode hex _ ih => rw [List.append_assoc, hasPlusEscape_hex hex, ih]

/-- A lenient literal without such an escape is one of RFC 8259. -/
theorem chars_of_no_plus {source : Str} (chars : Chars LooseHex source) {rest : Str}
    (noPlus : hasPlusEscape (source ++ rest) = false) :
    Chars IsHex4 source ∧ hasPlusEscape rest = false := by
  induction chars with
  | nil => exact ⟨.nil, noPlus⟩
  | unescaped plain _ ih =>
      rw [List.cons_append, hasPlusEscape_cons plain.2.2] at noPlus
      obtain ⟨strict, after⟩ := ih noPlus
      exact ⟨.unescaped plain strict, after⟩
  | @short e source known _ ih =>
      obtain ⟨c, known'⟩ := Option.isSome_iff_exists.mp known
      rw [List.cons_append, List.cons_append,
        hasPlusEscape_short (Scanner.shortEscape_ascii known').2] at noPlus
      obtain ⟨strict, after⟩ := ih noPlus
      exact ⟨.short known strict, after⟩
  | @unicode digits source hex _ ih =>
      rcases hex with hex | ⟨digits, rfl, -⟩
      · rw [List.append_assoc, hasPlusEscape_hex hex] at noPlus
        obtain ⟨strict, after⟩ := ih noPlus
        exact ⟨.unicode hex strict, after⟩
      · simp [hasPlusEscape] at noPlus

/-- The scanner accepts the lenient texts. -/
theorem scan_isSome_iff_loose {text : Str} :
    (scan text).isSome ↔ IsJson LooseHex text := by
  rw [scan_isSome_iff]
  constructor
  · rintro ⟨pieces, document, rfl, parsed, depth⟩
    exact ⟨pieces, document, rfl, parsed.mono fun _ _ lit => lit.chars, depth⟩
  · rintro ⟨pieces, document, rfl, parsed, depth⟩
    obtain ⟨⟨pieces', document', parsed', same, nesting⟩, -⟩ :=
      @JsonText.thread _ LitChars (fun _ => True) (fun _ _ _ _ => trivial)
        (fun _ _ _ chars _ => ⟨exists_litChars_iff.mpr chars, trivial⟩) _ _ parsed trivial
    exact ⟨pieces', document', same.symm, parsed', nesting ▸ depth⟩

/-- A JSON text is lenient and has no escape with a plus sign. -/
theorem IsJson.loose {text : Str} (json : IsJson IsHex4 text) :
    IsJson LooseHex text ∧ hasPlusEscape text = false := by
  obtain ⟨pieces, document, rfl, parsed, depth⟩ := json
  have wider : ∀ {source}, Chars IsHex4 source → Chars LooseHex source := by
    intro source chars
    induction chars with
    | nil => exact .nil
    | unescaped plain _ ih => exact .unescaped plain ih
    | short known _ ih => exact .short known ih
    | unicode hex _ ih => exact .unicode (.inl hex) ih
  refine ⟨⟨pieces, document, rfl, parsed.mono fun _ _ chars => wider chars, depth⟩, ?_⟩
  rw [← Bool.not_eq_true]
  intro plus
  have ended := (@JsonText.thread _ (fun source _ => Chars IsHex4 source)
    (fun text => hasPlusEscape text = true)
    (fun text rest plain before => (hasPlusEscape_plain plain rest) ▸ before)
    (fun _ value rest chars before =>
      ⟨⟨value, chars⟩, (hasPlusEscape_chars chars rest) ▸ before⟩) _ _ parsed plus).2
  simp at ended

/-- A lenient text without such an escape is a JSON text. -/
theorem IsJson.strict {text : Str} (loose : IsJson LooseHex text)
    (noPlus : hasPlusEscape text = false) : IsJson IsHex4 text := by
  obtain ⟨pieces, document, rfl, parsed, depth⟩ := loose
  obtain ⟨⟨pieces', document', parsed', same, nesting⟩, -⟩ :=
    @JsonText.thread _ (fun source _ => Chars IsHex4 source)
      (fun text => hasPlusEscape text = false)
      (fun text rest plain before => (hasPlusEscape_plain plain rest) ▸ before)
      (fun _ value rest chars before => by
        obtain ⟨strict, after⟩ := chars_of_no_plus chars before
        exact ⟨⟨value, strict⟩, after⟩) _ _ parsed noPlus
  exact ⟨pieces', document', same.symm, parsed', nesting ▸ depth⟩

/-- The scanner accepts exactly JSON on every text but the lenient ones with a plus
sign in a Unicode escape. -/
theorem scan_accepts_json_iff (text : Str) :
    ((scan text).isSome ↔ IsJson IsHex4 text) ↔
      ¬(IsJson LooseHex text ∧ hasPlusEscape text = true) := by
  rw [scan_isSome_iff_loose]
  constructor
  · rintro exact' ⟨loose, plus⟩
    rw [(exact'.mp loose).loose.2] at plus
    exact absurd plus (by decide)
  · intro noSlip
    refine ⟨fun loose => loose.strict ?_, fun json => json.loose.1⟩
    rw [← Bool.not_eq_true]
    exact fun plus => noSlip ⟨loose, plus⟩

/-- The scanner accepts a text that is not JSON. -/
theorem scan_accepts_plus_escape :
    ¬((scan "\"\\u+041\"".toList).isSome ↔ IsJson IsHex4 "\"\\u+041\"".toList) := by
  intro exact'
  have accepted : (scan "\"\\u+041\"".toList).isSome := by decide
  exact absurd (exact'.mp accepted).loose.2 (by decide)

end Proxemby
