import Proxemby.Escape

/-!
# The codecs of URLs

`query_escape` and `parse_query` of `src/util.rs`, next to `escape_path`: what is written is
read back, and it is written with the characters of a URL alone.
-/

namespace Proxemby

open Text Utf8

/-! ## Parsing part by part -/

theorem parseParts_cons (part : Str) (rest : List Str) :
    parseParts (part :: rest) =
      ((parseParts [part]).1 ++ (parseParts rest).1,
        (parseParts [part]).2 || (parseParts rest).2) := by
  simp only [parseParts]
  by_cases blank : part = []
  · simp [blank]
  · simp only [blank, ↓reduceIte]
    by_cases semicolon : ';' ∈ part
    · simp [semicolon]
    · simp only [List.contains_eq_mem, semicolon, decide_false, Bool.false_eq_true,
        ↓reduceIte]
      cases percentDecode ((splitOnce '=' part).getD (part, [])).1 true <;>
        cases percentDecode ((splitOnce '=' part).getD (part, [])).2 true <;> simp

theorem parseParts_append (left right : List Str) :
    parseParts (left ++ right) =
      ((parseParts left).1 ++ (parseParts right).1,
        (parseParts left).2 || (parseParts right).2) := by
  induction left with
  | nil => simp [parseParts]
  | cons part left ih =>
      rw [List.cons_append, parseParts_cons, parseParts_cons part left, ih]
      simp [Bool.or_assoc]

/-- A `key=value` part without a semicolon whose halves decode is one pair. -/
theorem parseParts_pair {key value name decoded : Str} (plain : '=' ∉ key)
    (keyDecodes : percentDecode key true = some name)
    (valueDecodes : percentDecode value true = some decoded)
    (noSemicolon : ';' ∉ key ++ '=' :: value) :
    parseParts [key ++ '=' :: value] = ([(name, decoded)], false) := by
  simp only [parseParts, List.contains_eq_mem, noSemicolon, decide_false,
    splitOnce_append plain, Option.getD_some, keyDecodes, valueDecodes]
  simp

/-! ## Writing queries -/

theorem percentBytes_queryByte (b : UInt8) (rest : Bytes) :
    percentBytes true (encode (queryByte b) ++ rest) =
      (percentBytes true rest).map (b :: ·) := by
  rw [queryByte]
  split
  · next kept =>
      have self : isUnreserved b = true →
          encode [Char.ofNat b.toNat] = [b] ∧ b ≠ 0x25 ∧ b ≠ 0x2B :=
        octet_forall (fun b => isUnreserved b = true →
          encode [Char.ofNat b.toNat] = [b] ∧ b ≠ 0x25 ∧ b ≠ 0x2B) (by decide +kernel) b
      obtain ⟨octet, noPercent, noPlus⟩ := self kept
      rw [octet, List.singleton_append]
      exact percentBytes_plain noPercent (by simp [noPlus]) rest
  · split
    · next space =>
        subst space
        rw [show encode ['+'] = [0x2B] by decide, List.singleton_append, percentBytes.eq_def]
        rfl
    · exact percentBytes_percentByte true b rest

/-- A written text is read back. -/
theorem percentDecode_queryEscape (text : Str) :
    percentDecode (queryEscape text) true = some text :=
  percentDecode_of_percentBytes (percentBytes_escapeWith percentBytes_queryByte text)

/-- A written text has none of the separators of a query. -/
theorem notMem_queryEscape (text : Str) :
    '&' ∉ queryEscape text ∧ '=' ∉ queryEscape text ∧ ';' ∉ queryEscape text := by
  have each (b : UInt8) : '&' ∉ queryByte b ∧ '=' ∉ queryByte b ∧ ';' ∉ queryByte b :=
    octet_forall (fun b => '&' ∉ queryByte b ∧ '=' ∉ queryByte b ∧ ';' ∉ queryByte b)
      (by decide +kernel) b
  simp only [queryEscape, escapeWith, List.mem_flatMap, not_exists, not_and]
  exact ⟨fun b _ => (each b).1, fun b _ => (each b).2.1, fun b _ => (each b).2.2⟩

/-- A pair as it is written. -/
def pairText (pair : Str × Str) : Str := queryEscape pair.1 ++ '=' :: queryEscape pair.2

theorem parseParts_pairText (pair : Str × Str) :
    parseParts [pairText pair] = ([pair], false) := by
  obtain ⟨-, plain, noSemicolon⟩ := notMem_queryEscape pair.1
  refine parseParts_pair plain (percentDecode_queryEscape pair.1)
    (percentDecode_queryEscape pair.2) ?_
  simp [noSemicolon, (notMem_queryEscape pair.2).2.2]

theorem parseParts_map_pairText (pairs : List (Str × Str)) :
    parseParts (pairs.map pairText) = (pairs, false) := by
  induction pairs with
  | nil => rfl
  | cons pair pairs ih =>
      rw [List.map_cons, parseParts_cons, parseParts_pairText, ih]
      rfl

/-- What is written with `&` between the pairs is parsed to them. -/
theorem parseQuery_intercalate (pairs : List (Str × Str)) :
    parseQuery (['&'].intercalate (pairs.map pairText)) = (pairs, false) := by
  cases pairs with
  | nil => rfl
  | cons pair pairs =>
      have fresh : ∀ part ∈ (pair :: pairs).map pairText, '&' ∉ part := by
        intro part member
        obtain ⟨pair, -, rfl⟩ := List.mem_map.mp member
        simp [pairText, (notMem_queryEscape pair.1).1, (notMem_queryEscape pair.2).1]
      rw [parseQuery, List.splitOn_intercalate '&' fresh (by simp), parseParts_map_pairText]

/-! ## The characters of a path -/

/-- An unreserved character, or one of the delimiters that a path may have. -/
def IsPathText (c : Char) : Prop :=
  c.isAlphanum = true ∨ c ∈ "-_.~".toList ∨ c ∈ "$&+,/:;=@".toList

instance (c : Char) : Decidable (IsPathText c) :=
  inferInstanceAs (Decidable
    (c.isAlphanum = true ∨ c ∈ "-_.~".toList ∨ c ∈ "$&+,/:;=@".toList))

/-- A text of such characters and of escapes. -/
inductive IsEscapedPath : Str → Prop where
  | nil : IsEscapedPath []
  | plain {c : Char} {rest : Str} : IsPathText c → IsEscapedPath rest → IsEscapedPath (c :: rest)
  | escape {hi lo : Char} {rest : Str} : hi ∈ hexDigits → lo ∈ hexDigits → IsEscapedPath rest →
      IsEscapedPath ('%' :: hi :: lo :: rest)

theorem isEscapedPath_escapePath (text : Str) : IsEscapedPath (escapePath text) := by
  have kept : ∀ b, isPathByte b = true → IsPathText (Char.ofNat b.toNat) :=
    octet_forall _ (by decide +kernel)
  have digits : ∀ b : UInt8, hexDigit (b >>> 4) ∈ hexDigits ∧ hexDigit (b &&& 15) ∈ hexDigits :=
    octet_forall _ (by decide +kernel)
  rw [escapePath, escapeWith]
  induction encode text with
  | nil => exact .nil
  | cons b bytes ih =>
      rw [List.flatMap_cons, pathByte]
      split
      · next plain => exact .plain (kept b plain) ih
      · exact .escape (digits b).1 (digits b).2 ih

/-- Every text and every list of pairs is read back as it was written. -/
theorem url_codecs (text : Str) (pairs : List (Str × Str)) :
    percentDecode (escapePath text) false = some text ∧
      percentDecode (queryEscape text) true = some text ∧
      IsEscapedPath (escapePath text) ∧
      parseQuery (['&'].intercalate
        (pairs.map fun pair => queryEscape pair.1 ++ '=' :: queryEscape pair.2)) =
          (pairs, false) :=
  ⟨percentDecode_escapePath text, percentDecode_queryEscape text, isEscapedPath_escapePath text,
    parseQuery_intercalate pairs⟩

example : parseQuery (['&'].intercalate ([("".toList, "".toList), ("a b".toList, "é;=".toList)].map
    pairText)) = ([("".toList, "".toList), ("a b".toList, "é;=".toList)], false) := by
  decide +kernel

end Proxemby
