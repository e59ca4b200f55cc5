import Proxemby.Rewrite.Soundness

/-!
# The scanner accepts all of JSON

The other direction: whatever the grammar derives, with at most `maxDepth`
containers around each value, the scanner reads, and the string values it keeps
are the absolute URLs among the pieces, each with its octet span.  The induction
is on the derivation.
-/

namespace Proxemby

open Utf8 Rfc8259

/-- Where a kept string stands in the text, and its value. -/
def FoundString.span (kept : FoundString) : Nat × Nat × Str :=
  (kept.start, kept.stop, kept.value)

namespace Scanner

/-- The span that a piece adds when it starts at octet `start`. -/
def keptAt (start : Nat) : Piece → List (Nat × Nat × Str)
  | .raw _ => []
  | .string source value =>
      if isAbsolute value then
        [(start, start + (encode (Piece.string source value).text).length, value)]
      else []

/-- The spans of the kept strings among pieces that start at octet `start`. -/
def keptFrom (start : Nat) : List Piece → List (Nat × Nat × Str)
  | [] => []
  | piece :: pieces =>
      keptAt start piece ++ keptFrom (start + (encode piece.text).length) pieces

theorem keptFrom_append (left right : List Piece) (start : Nat) :
    keptFrom start (left ++ right) =
      keptFrom start left ++
        keptFrom (start + (encode (Piece.flat left)).length) right := by
  induction left generalizing start with
  | nil => simp [keptFrom]
  | cons piece left ih => simp [keptFrom, ih, Nat.add_assoc]

@[simp] theorem keptFrom_raw (text : Str) (pieces : List Piece) (start : Nat) :
    keptFrom start (.raw text :: pieces) = keptFrom (start + (encode text).length) pieces :=
  rfl

@[simp] theorem keptFrom_nil (start : Nat) : keptFrom start [] = [] := rfl

variable {read rest : Str} {stack : List Segment} {found : List FoundString}

/-- `value` on white space and the first character of a value. -/
theorem value_lead {fuel : Nat} {ws : Str} {c : Char} {b : UInt8} (isWs : IsWs ws)
    (depth : stack.length ≤ maxDepth) (solid : Rfc8259.isWs c = false)
    (lead : c.toNat < 0x80 ∧ UInt8.ofNat c.toNat = b) :
    value (fuel + 1) (between read (ws ++ c :: rest) stack found) =
      let s := between (read ++ ws) (c :: rest) stack found
      if b = 0x7B then object fuel s
      else if b = 0x5B then array fuel s
      else if b = 0x22 then s.stringValue
      else if b = 0x74 then s.literal (encode "true".toList)
      else if b = 0x66 then s.literal (encode "false".toList)
      else if b = 0x6E then s.literal (encode "null".toList)
      else if b = 0x2D || (0x30 ≤ b && b ≤ 0x39) then s.number
      else .none := by
  have stops : Stops Rfc8259.isWs (c :: rest) := by
    intro d next
    obtain rfl : c = d := by simpa using next
    exact solid
  have next : (between (read ++ ws) (c :: rest) stack found).byte? = some b :=
    (byte?_iff c lead).mpr ⟨rest, rfl⟩
  rw [value, between_stack, if_neg (Nat.not_lt.mpr depth), skipWs_complete isWs stops]
  simp only [next]

/-- `value` reads this value. -/
def ValueComplete (pieces : List Piece) (document : Json) : Prop :=
  ∀ {fuel read ws rest stack found}, IsWs ws → Stops inNumber rest →
    stack.length + document.enclosing ≤ maxDepth →
    3 * (Piece.flat pieces).length + 1 ≤ fuel →
    ∃ kept,
      value fuel (between read (ws ++ (Piece.flat pieces ++ rest)) stack found) =
        .ok (between (read ++ ws ++ Piece.flat pieces) rest stack (found ++ kept)) ∧
      kept.map FoundString.span = keptFrom (encode (read ++ ws)).length pieces

/-- The loop of `object` reads these members. -/
def MembersComplete (pieces : List Piece) (inner : List (Str × Json)) : Prop :=
  ∀ {fuel read rest stack found},
    stack.length + Json.enclosingMembers inner ≤ maxDepth →
    3 * (Piece.flat pieces).length + 2 ≤ fuel →
    ∃ kept,
      members fuel (between read (Piece.flat pieces ++ '}' :: rest) stack found) =
        .ok (between (read ++ Piece.flat pieces ++ ['}']) rest stack (found ++ kept)) ∧
      kept.map FoundString.span = keptFrom (encode read).length pieces

/-- The loop of `array` reads these elements. -/
def ElementsComplete (pieces : List Piece) (inner : List Json) : Prop :=
  ∀ {fuel index read rest stack found},
    stack.length + Json.enclosingElements inner ≤ maxDepth →
    3 * (Piece.flat pieces).length + 2 ≤ fuel →
    ∃ kept,
      elements fuel index (between read (Piece.flat pieces ++ ']' :: rest) stack found) =
        .ok (between (read ++ Piece.flat pieces ++ [']']) rest stack (found ++ kept)) ∧
      kept.map FoundString.span = keptFrom (encode read).length pieces

/-! ## Scalars -/

/-- The words `true`, `false` and `null`. -/
theorem literal_complete {document : Json} {word : Str} (flat : document.enclosing = 0)
    (reads : ∀ {fuel read ws rest stack found}, IsWs ws → stack.length ≤ maxDepth →
      value (fuel + 1) (between read (ws ++ (word ++ rest)) stack found) =
        (between (read ++ ws) (word ++ rest) stack found).literal (encode word))
    (ascii : ∀ c ∈ word, c.toNat < 0x80) : ValueComplete [.raw word] document := by
  intro fuel read ws rest stack found isWs _ depth enough
  obtain ⟨fuel, rfl⟩ := Nat.exists_eq_add_one_of_ne_zero (n := fuel) (by omega)
  refine ⟨[], ?_, rfl⟩
  rw [flat, Nat.add_zero] at depth
  simp only [Piece.flat_cons, Piece.text_raw, Piece.flat_nil, List.append_nil]
  rw [reads isWs depth, literal_eq_ok ascii]
  exact ⟨rest, rfl, rfl⟩

theorem true_complete : ValueComplete [.raw "true".toList] (.bool true) :=
  literal_complete rfl (fun isWs depth => value_lead (c := 't') (b := 0x74) isWs depth rfl
    (by decide)) (by decide)

theorem false_complete : ValueComplete [.raw "false".toList] (.bool false) :=
  literal_complete rfl (fun isWs depth => value_lead (c := 'f') (b := 0x66) isWs depth rfl
    (by decide)) (by decide)

theorem null_complete : ValueComplete [.raw "null".toList] .null :=
  literal_complete rfl (fun isWs depth => value_lead (c := 'n') (b := 0x6E) isWs depth rfl
    (by decide)) (by decide)

/-- The octet of a character sends `value` to `number`. -/
def LeadsNumber (c : Char) : Prop :=
  isWs c = false ∧
    (∀ b ∈ ([0x7B, 0x5B, 0x22, 0x74, 0x66, 0x6E] : Bytes), UInt8.ofNat c.toNat ≠ b) ∧
    (UInt8.ofNat c.toNat = 0x2D ||
      (0x30 ≤ UInt8.ofNat c.toNat && UInt8.ofNat c.toNat ≤ 0x39)) = true

theorem leadsNumber_of_isDigit {c : Char} (digit : isDigit c = true) : LeadsNumber c :=
  ascii_forall (fun c => isDigit c = true → LeadsNumber c)
    (by unfold LeadsNumber; decide) (isDigit_ascii digit) digit

theorem isNumber_lead {lexeme : Str} (isNumber : IsNumber lexeme) :
    ∃ c tail, lexeme = c :: tail ∧ c.toNat < 0x80 ∧ LeadsNumber c := by
  obtain ⟨minus, int, frac, exp, rfl, rfl | rfl, isInt, -, -⟩ := isNumber
  · obtain rfl | ⟨first, digits, rfl, digit, -⟩ := isInt
    · exact ⟨'0', _, rfl, by decide, leadsNumber_of_isDigit rfl⟩
    · exact ⟨first, _, rfl, isDigit_ascii digit, leadsNumber_of_isDigit digit⟩
  · exact ⟨'-', _, rfl, by decide, by unfold LeadsNumber; decide⟩

theorem numeric_complete {lexeme : Str} (isNumber : IsNumber lexeme) :
    ValueComplete [.raw lexeme] (.number lexeme) := by
  intro fuel read ws rest stack found isWs stops depth enough
  obtain ⟨fuel, rfl⟩ := Nat.exists_eq_add_one_of_ne_zero (n := fuel) (by omega)
  refine ⟨[], ?_, rfl⟩
  simp only [Json.enclosing, Nat.add_zero] at depth
  have reads := @number_complete (read ++ ws) _ stack found _ isNumber stops
  obtain ⟨c, tail, rfl, ascii, solid, others, lead⟩ := isNumber_lead isNumber
  simp only [List.mem_cons, List.not_mem_nil, or_false, forall_eq_or_imp,
    forall_eq] at others
  obtain ⟨brace, bracket, quote, t, f, n⟩ := others
  simp only [Piece.flat_cons, Piece.text_raw, Piece.flat_nil, List.append_nil]
  rw [List.cons_append, value_lead isWs depth solid ⟨ascii, rfl⟩]
  dsimp only
  rw [if_neg brace, if_neg bracket, if_neg quote, if_neg t, if_neg f, if_neg n, if_pos lead]
  exact reads

theorem stringValue_complete {source value : Str} (lit : LitChars source value) :
    ValueComplete [.string source value] (.string value) := by
  intro fuel read ws rest stack found isWs stops depth enough
  obtain ⟨fuel, rfl⟩ := Nat.exists_eq_add_one_of_ne_zero (n := fuel) (by omega)
  simp only [Json.enclosing, Nat.add_zero] at depth
  have reads := @string_complete (read ++ ws) stack found _ _ lit rest
  have enter : Scanner.value (fuel + 1)
      (between read (ws ++ '"' :: (source ++ '"' :: rest)) stack found) =
        (between (read ++ ws) ('"' :: (source ++ '"' :: rest)) stack found).stringValue :=
    value_lead (b := 0x22) isWs depth rfl (by decide)
  simp only [stringValue, reads, Scan.ok_bind] at enter
  have text : Piece.flat [.string source value] ++ rest =
      '"' :: (source ++ '"' :: rest) := by simp
  rw [text, enter]
  by_cases absolute : isAbsolute value = true
  · rw [if_pos absolute]
    refine ⟨[⟨(encode (read ++ ws)).length,
      (encode (read ++ ws ++ '"' :: source ++ ['"'])).length,
      (between (read ++ ws ++ '"' :: source ++ ['"']) rest stack found).path, value⟩], ?_, ?_⟩
    · simp [between, path]
    · simp [FoundString.span, keptFrom, keptAt, absolute, Nat.add_assoc]
  · rw [if_neg absolute]
    refine ⟨[], by simp [between], ?_⟩
    simp [keptFrom, keptAt, absolute]

/-! ## Containers -/

theorem stops_of_ws {ws tail : Str} (isWs : IsWs ws) (stops : Stops inNumber tail) :
    Stops inNumber (ws ++ tail) := by
  cases ws with
  | nil => exact stops
  | cons c ws =>
      intro d next
      obtain rfl : c = d := by simpa using next
      have solid := isWs c List.mem_cons_self
      exact ascii_forall (fun c => Rfc8259.isWs c = true → inNumber c = false)
        (by decide) (isWs_ascii solid) solid

theorem stops_cons {test : Char → Bool} {c : Char} (stopped : test c = false) (tail : Str) :
    Stops test (c :: tail) := by
  intro d next
  obtain rfl : c = d := by simpa using next
  exact stopped

/-- One element of an array and the character behind it. -/
theorem elements_step {fuel index : Nat} {before after tail : Str} {c : Char}
    {pieces : List Piece} {document : Json} (complete : ValueComplete pieces document)
    (beforeWs : IsWs before) (afterWs : IsWs after)
    (isEnd : c = ',' ∨ c = ']') (depth : stack.length + (document.enclosing + 1) ≤ maxDepth)
    (enough : 3 * (Piece.flat pieces).length + 1 ≤ fuel) :
    ∃ kept,
      elements (fuel + 1) index
          (between read (before ++ (Piece.flat pieces ++ (after ++ c :: tail))) stack found) =
        (let s := between (read ++ before ++ Piece.flat pieces ++ after ++ [c]) tail stack
          (found ++ kept)
        if c = ',' then elements fuel (index + 1) s else .ok s) ∧
      kept.map FoundString.span = keptFrom (encode (read ++ before)).length pieces := by
  have stopsEnd : inNumber c = false ∧ isWs c = false ∧ c.toNat < 0x80 := by
    rcases isEnd with rfl | rfl <;> decide
  obtain ⟨kept, element, spans⟩ := @complete _ read _ _
    (stack ++ [.index index]) found beforeWs (stops_of_ws afterWs (stops_cons stopsEnd.1 tail))
    (by rw [List.length_append, List.length_singleton]; omega) enough
  refine ⟨kept, ?_, spans⟩
  have ended : (between (read ++ before ++ Piece.flat pieces ++ after) (c :: tail) stack
      (found ++ kept)).byte? = some (UInt8.ofNat c.toNat) :=
    (byte?_iff c ⟨stopsEnd.2.2, rfl⟩).mpr ⟨tail, rfl⟩
  rw [elements, between_push, element, Scan.ok_bind, between_pop,
    skipWs_complete afterWs (stops_cons stopsEnd.2.1 tail)]
  simp only [ended, between_advance_one stopsEnd.2.2]
  rcases isEnd with rfl | rfl
  · rfl
  · rfl

/-- One member of an object and the character behind it. -/
theorem members_step {fuel : Nat} {before key name middle colon after tail : Str} {c : Char}
    {pieces : List Piece} {document : Json} (complete : ValueComplete pieces document)
    (beforeWs : IsWs before) (keyLit : LitChars key name) (middleWs : IsWs middle)
    (colonWs : IsWs colon) (afterWs : IsWs after) (isEnd : c = ',' ∨ c = '}')
    (depth : stack.length + (document.enclosing + 1) ≤ maxDepth)
    (enough : 3 * (Piece.flat pieces).length + 1 ≤ fuel) :
    ∃ kept,
      members (fuel + 1)
          (between read (before ++ '"' :: (key ++ '"' :: (middle ++ ':' :: (colon ++
            (Piece.flat pieces ++ (after ++ c :: tail)))))) stack found) =
        (let s := between (read ++ (before ++ '"' :: key ++ '"' :: middle ++ ':' :: colon) ++
          Piece.flat pieces ++ after ++ [c]) tail stack (found ++ kept)
        if c = ',' then members fuel s else .ok s) ∧
      kept.map FoundString.span =
        keptFrom (encode (read ++ (before ++ '"' :: key ++ '"' :: middle ++ ':' :: colon))).length
          pieces := by
  have stopsEnd : inNumber c = false ∧ isWs c = false ∧ c.toNat < 0x80 := by
    rcases isEnd with rfl | rfl <;> decide
  obtain ⟨kept, member, spans⟩ := @complete _
    (read ++ before ++ '"' :: key ++ ['"'] ++ middle ++ [':']) _ _
    (stack ++ [.key name]) found colonWs
    (stops_of_ws afterWs (stops_cons stopsEnd.1 tail))
    (by rw [List.length_append, List.length_singleton]; omega) enough
  have same : read ++ before ++ '"' :: key ++ ['"'] ++ middle ++ [':'] ++ colon =
      read ++ (before ++ '"' :: key ++ '"' :: middle ++ ':' :: colon) := by simp
  rw [same] at member spans
  refine ⟨kept, ?_, spans⟩
  have quote : ∀ rest, (between (read ++ before) ('"' :: rest) stack found).byte? = some 0x22 :=
    fun rest => (byte?_iff '"' (by decide)).mpr ⟨rest, rfl⟩
  have colonNext : ∀ read rest, (between read (':' :: rest) stack found).byte? = some 0x3A :=
    fun _ rest => (byte?_iff ':' (by decide)).mpr ⟨rest, rfl⟩
  have ended : ∀ read, (between read (c :: tail) stack (found ++ kept)).byte? =
      some (UInt8.ofNat c.toNat) :=
    fun _ => (byte?_iff c ⟨stopsEnd.2.2, rfl⟩).mpr ⟨tail, rfl⟩
  rw [members, skipWs_complete beforeWs (stops_cons (by decide) _)]
  simp only [quote, ne_eq, not_true_eq_false, ↓reduceIte, string_complete keyLit,
    Scan.ok_bind, skipWs_complete middleWs (stops_cons (c := ':') (by decide) _), colonNext,
    between_advance_one (c := ':') (by decide), between_push, member, between_pop,
    skipWs_complete afterWs (stops_cons stopsEnd.2.1 tail), ended,
    between_advance_one stopsEnd.2.2]
  rcases isEnd with rfl | rfl
  · rfl
  · rfl

theorem elements_complete_one {before after : Str} {pieces : List Piece} {document : Json}
    (beforeWs : IsWs before) (complete : ValueComplete pieces document)
    (afterWs : IsWs after) :
    ElementsComplete (.raw before :: pieces ++ [.raw after]) [document] := by
  intro fuel index read rest stack found depth enough
  simp only [Json.enclosingElements, Nat.max_zero] at depth
  simp only [List.cons_append, Piece.flat_cons, Piece.text_raw, Piece.flat_append,
    Piece.flat_nil, List.append_nil, List.length_append] at enough
  obtain ⟨fuel, rfl⟩ := Nat.exists_eq_add_one_of_ne_zero (n := fuel) (by omega)
  obtain ⟨kept, reads, spans⟩ := @elements_step read stack found fuel index _ _ rest _ _ _
      complete beforeWs afterWs (.inr rfl) depth (by omega)
  refine ⟨kept, ?_, ?_⟩
  · simpa using reads
  · simp [spans, keptFrom_append]

theorem elements_complete_cons {before after : Str} {pieces others : List Piece}
    {document : Json} {values : List Json} (beforeWs : IsWs before)
    (complete : ValueComplete pieces document) (afterWs : IsWs after)
    (othersComplete : ElementsComplete others values) :
    ElementsComplete (.raw before :: pieces ++ .raw (after ++ [',']) :: others)
      (document :: values) := by
  intro fuel index read rest stack found depth enough
  simp only [Json.enclosingElements] at depth
  simp only [List.cons_append, Piece.flat_cons, Piece.text_raw, Piece.flat_append,
    List.length_append, List.length_cons, List.length_nil] at enough
  obtain ⟨fuel, rfl⟩ := Nat.exists_eq_add_one_of_ne_zero (n := fuel) (by omega)
  obtain ⟨kept, reads, spans⟩ := @elements_step read stack found fuel index _ _
      (Piece.flat others ++ ']' :: rest) _ _ _ complete beforeWs afterWs (.inl rfl) (by omega)
      (by omega)
  obtain ⟨kept', reads', spans'⟩ := @othersComplete fuel (index + 1)
    (read ++ before ++ Piece.flat pieces ++ after ++ [',']) rest stack (found ++ kept)
      (by omega) (by omega)
  refine ⟨kept ++ kept', ?_, ?_⟩
  · simp only [↓reduceIte, reads'] at reads
    simpa using reads
  · simp [spans, spans', keptFrom_append, Nat.add_assoc]

theorem members_complete_one {before key name middle colon after : Str}
    {pieces : List Piece} {document : Json} (beforeWs : IsWs before)
    (keyLit : LitChars key name) (middleWs : IsWs middle) (colonWs : IsWs colon)
    (complete : ValueComplete pieces document) (afterWs : IsWs after) :
    MembersComplete
      (.raw (before ++ '"' :: key ++ '"' :: middle ++ ':' :: colon) :: pieces ++
        [.raw after])
      [(name, document)] := by
  intro fuel read rest stack found depth enough
  simp only [Json.enclosingMembers, Nat.max_zero] at depth
  simp only [List.cons_append, Piece.flat_cons, Piece.text_raw, Piece.flat_append,
    Piece.flat_nil, List.append_nil, List.length_append, List.length_cons] at enough
  obtain ⟨fuel, rfl⟩ := Nat.exists_eq_add_one_of_ne_zero (n := fuel) (by omega)
  obtain ⟨kept, reads, spans⟩ := @members_step read stack found fuel _ _ _ _ _ _ rest _ _ _
      complete beforeWs keyLit middleWs colonWs afterWs (.inr rfl) depth (by omega)
  refine ⟨kept, ?_, ?_⟩
  · simpa using reads
  · rw [spans]
    simp [keptFrom_append]

theorem members_complete_cons {before key name middle colon after : Str}
    {pieces others : List Piece} {document : Json} {inner : List (Str × Json)}
    (beforeWs : IsWs before) (keyLit : LitChars key name) (middleWs : IsWs middle)
    (colonWs : IsWs colon) (complete : ValueComplete pieces document)
    (afterWs : IsWs after) (othersComplete : MembersComplete others inner) :
    MembersComplete
      (.raw (before ++ '"' :: key ++ '"' :: middle ++ ':' :: colon) :: pieces ++
        .raw (after ++ [',']) :: others)
      ((name, document) :: inner) := by
  intro fuel read rest stack found depth enough
  simp only [Json.enclosingMembers] at depth
  simp only [List.cons_append, Piece.flat_cons, Piece.text_raw, Piece.flat_append,
    List.length_append, List.length_cons, List.length_nil] at enough
  obtain ⟨fuel, rfl⟩ := Nat.exists_eq_add_one_of_ne_zero (n := fuel) (by omega)
  obtain ⟨kept, reads, spans⟩ := @members_step read stack found fuel _ _ _ _ _ _
      (Piece.flat others ++ '}' :: rest) _ _ _ complete beforeWs keyLit middleWs colonWs
      afterWs (.inl rfl) (by omega) (by omega)
  obtain ⟨kept', reads', spans'⟩ := @othersComplete fuel
    (read ++ (before ++ '"' :: key ++ '"' :: middle ++ ':' :: colon) ++
      Piece.flat pieces ++ after ++ [',']) rest stack (found ++ kept) (by omega) (by omega)
  refine ⟨kept ++ kept', ?_, ?_⟩
  · simp only [↓reduceIte, reads'] at reads
    simpa using reads
  · rw [List.map_append, spans, spans']
    simp [keptFrom_append, Nat.add_assoc]

theorem stops_dropWhile (test : Char → Bool) (text : Str) :
    Stops test (text.dropWhile test) := by
  intro c next
  have stopped := List.head?_dropWhile_not test text
  rw [next] at stopped
  simpa using stopped

theorem skipWs_skipWs : (between read rest stack found).skipWs.skipWs =
    (between read rest stack found).skipWs := by
  rw [between_skipWs]
  exact (@skipWs_complete _ _ _ _ [] (by simp [IsWs]) (stops_dropWhile isWs rest)).trans
    (by rw [List.append_nil])

/-- White space ahead of the first element may be skipped before the loop. -/
theorem elements_skipWs (fuel index : Nat) :
    elements fuel index (between read rest stack found).skipWs =
      elements fuel index (between read rest stack found) := by
  have value_skipWs : ∀ (fuel : Nat) (stack : List Segment),
      value fuel (between read rest stack found).skipWs =
        value fuel (between read rest stack found) := by
    intro fuel stack
    cases fuel with
    | zero => rfl
    | succ fuel =>
        rw [value, value, skipWs_skipWs]
        rfl
  cases fuel with
  | zero => rfl
  | succ fuel =>
      have pushed : (between read rest stack found).skipWs.push (.index index) =
          (between read rest (stack ++ [.index index]) found).skipWs := rfl
      rw [elements, elements, pushed, value_skipWs, between_push]

theorem members_skipWs (fuel : Nat) :
    members fuel (between read rest stack found).skipWs =
      members fuel (between read rest stack found) := by
  cases fuel with
  | zero => rfl
  | succ fuel => rw [members, members, skipWs_skipWs]

/-- A closing bracket is no element. -/
theorem elements_bracket (fuel index : Nat) (s : Scanner) :
    elements fuel index (between read (']' :: rest) stack found) ≠ .ok s := by
  have none : ∀ (fuel : Nat) (stack : List Segment) (s : Scanner),
      value fuel (between read (']' :: rest) stack found) ≠ .ok s := by
    intro fuel stack s accepted
    cases fuel with
    | zero => simp [value] at accepted
    | succ fuel =>
        by_cases depth : stack.length ≤ maxDepth
        · have refused : value (fuel + 1) (between read ([] ++ ']' :: rest) stack found) =
              .none := value_lead (b := 0x5D) (by simp [IsWs]) depth rfl (by decide)
          rw [List.nil_append] at refused
          simp [refused] at accepted
        · simp [value, Nat.lt_of_not_le depth] at accepted
  intro accepted
  cases fuel with
  | zero => simp [elements] at accepted
  | succ fuel =>
      rw [elements, between_push, Scan.bind_eq_ok] at accepted
      obtain ⟨s', element, -⟩ := accepted
      exact none fuel _ s' element

/-- A closing brace is no member. -/
theorem members_brace (fuel : Nat) (s : Scanner) :
    members fuel (between read ('}' :: rest) stack found) ≠ .ok s := by
  intro accepted
  cases fuel with
  | zero => simp [members] at accepted
  | succ fuel =>
      have entered := @skipWs_complete read _ stack found [] (by simp [IsWs])
          (stops_cons (c := '}') (by decide) rest)
      have noQuote : (between (read ++ []) ('}' :: rest) stack found).byte? ≠ some 0x22 := by
        rw [ne_eq, byte?_iff '"' (by decide)]
        rintro ⟨tail, same⟩
        exact absurd (List.cons.inj same).1 (by decide)
      rw [List.nil_append] at entered
      rw [members, entered] at accepted
      dsimp only at accepted
      rw [if_pos noQuote] at accepted
      simp at accepted

theorem emptyArray_complete {ws : Str} (isWs : IsWs ws) :
    ValueComplete [.raw ('[' :: ws ++ [']'])] (.array []) := by
  intro fuel read before rest stack found beforeWs _ depth enough
  simp only [Piece.flat_cons, Piece.text_raw, Piece.flat_nil, List.append_nil,
    List.length_append, List.length_cons, List.length_nil] at enough
  obtain ⟨fuel, rfl⟩ : ∃ n, fuel = n + 2 := ⟨fuel - 2, by omega⟩
  have enter : value (fuel + 2)
      (between read (before ++ '[' :: (ws ++ ']' :: rest)) stack found) =
        array (fuel + 1) (between (read ++ before) ('[' :: (ws ++ ']' :: rest)) stack found) :=
    value_lead (b := 0x5B) beforeWs (by omega) rfl (by decide)
  rw [array, between_advance_one (by decide),
    skipWs_complete isWs (stops_cons (by decide) _)] at enter
  rw [if_pos ((byte?_iff ']' (by decide)).mpr ⟨rest, rfl⟩),
    between_advance_one (by decide)] at enter
  exact ⟨[], by simpa using enter, rfl⟩

theorem emptyObject_complete {ws : Str} (isWs : IsWs ws) :
    ValueComplete [.raw ('{' :: ws ++ ['}'])] (.object []) := by
  intro fuel read before rest stack found beforeWs _ depth enough
  simp only [Piece.flat_cons, Piece.text_raw, Piece.flat_nil, List.append_nil,
    List.length_append, List.length_cons, List.length_nil] at enough
  obtain ⟨fuel, rfl⟩ : ∃ n, fuel = n + 2 := ⟨fuel - 2, by omega⟩
  have enter : value (fuel + 2)
      (between read (before ++ '{' :: (ws ++ '}' :: rest)) stack found) =
        object (fuel + 1) (between (read ++ before) ('{' :: (ws ++ '}' :: rest)) stack found) :=
    value_lead (b := 0x7B) beforeWs (by omega) rfl (by decide)
  rw [object, between_advance_one (by decide),
    skipWs_complete isWs (stops_cons (by decide) _)] at enter
  rw [if_pos ((byte?_iff '}' (by decide)).mpr ⟨rest, rfl⟩),
    between_advance_one (by decide)] at enter
  exact ⟨[], by simpa using enter, rfl⟩

theorem array_complete {pieces : List Piece} {inner : List Json}
    (complete : ElementsComplete pieces inner) :
    ValueComplete (.raw ['['] :: pieces ++ [.raw [']']]) (.array inner) := by
  intro fuel read ws rest stack found isWs _ depth enough
  simp only [List.cons_append, Piece.flat_cons, Piece.text_raw, Piece.flat_append,
    Piece.flat_nil, List.append_nil, List.length_append, List.length_cons,
    List.length_nil] at enough
  obtain ⟨fuel, rfl⟩ : ∃ n, fuel = n + 2 := ⟨fuel - 2, by omega⟩
  have shallow : stack.length ≤ maxDepth := by omega
  have enter : value (fuel + 2)
      (between read (ws ++ '[' :: (Piece.flat pieces ++ ']' :: rest)) stack found) =
        array (fuel + 1) (between (read ++ ws) ('[' :: (Piece.flat pieces ++ ']' :: rest))
          stack found) :=
    value_lead (b := 0x5B) isWs shallow rfl (by decide)
  obtain ⟨kept, reads, spans⟩ := @complete fuel 0
    (read ++ ws ++ ['[']) rest stack found depth
    (by omega)
  have notBracket : (between (read ++ ws ++ ['[']) (Piece.flat pieces ++ ']' :: rest) stack
      found).skipWs.byte? ≠ some 0x5D := by
    rw [between_skipWs]
    intro bracket
    obtain ⟨tail, starts⟩ := (byte?_iff ']' (by decide)).mp bracket
    rw [← elements_skipWs, between_skipWs, starts] at reads
    exact elements_bracket _ _ _ reads
  rw [array, between_advance_one (by decide)] at enter
  rw [if_neg notBracket, elements_skipWs, reads] at enter
  refine ⟨kept, by simpa using enter, ?_⟩
  simp [spans, keptFrom_append, Nat.add_assoc]

theorem object_complete {pieces : List Piece} {inner : List (Str × Json)}
    (complete : MembersComplete pieces inner) :
    ValueComplete (.raw ['{'] :: pieces ++ [.raw ['}']]) (.object inner) := by
  intro fuel read ws rest stack found isWs _ depth enough
  simp only [List.cons_append, Piece.flat_cons, Piece.text_raw, Piece.flat_append,
    Piece.flat_nil, List.append_nil, List.length_append, List.length_cons,
    List.length_nil] at enough
  obtain ⟨fuel, rfl⟩ : ∃ n, fuel = n + 2 := ⟨fuel - 2, by omega⟩
  have shallow : stack.length ≤ maxDepth := by omega
  have enter : value (fuel + 2)
      (between read (ws ++ '{' :: (Piece.flat pieces ++ '}' :: rest)) stack found) =
        object (fuel + 1) (between (read ++ ws) ('{' :: (Piece.flat pieces ++ '}' :: rest))
          stack found) :=
    value_lead (b := 0x7B) isWs shallow rfl (by decide)
  obtain ⟨kept, reads, spans⟩ := @complete fuel
    (read ++ ws ++ ['{']) rest stack found depth
    (by omega)
  have notBrace : (between (read ++ ws ++ ['{']) (Piece.flat pieces ++ '}' :: rest) stack
      found).skipWs.byte? ≠ some 0x7D := by
    rw [between_skipWs]
    intro brace
    obtain ⟨tail, starts⟩ := (byte?_iff '}' (by decide)).mp brace
    rw [← members_skipWs, between_skipWs, starts] at reads
    exact members_brace _ _ reads
  rw [object, between_advance_one (by decide)] at enter
  rw [if_neg notBrace, members_skipWs, reads] at enter
  refine ⟨kept, by simpa using enter, ?_⟩
  simp [spans, keptFrom_append, Nat.add_assoc]

/-! ## All values -/

mutual
theorem value_complete {pieces : List Piece} {document : Json} :
    Value LitChars pieces document → ValueComplete pieces document
  | .null => null_complete
  | .true => true_complete
  | .false => false_complete
  | .number isNumber => numeric_complete isNumber
  | .string lit => stringValue_complete lit
  | .emptyArray isWs => emptyArray_complete isWs
  | .array isElements => array_complete (elements_complete isElements)
  | .emptyObject isWs => emptyObject_complete isWs
  | .object isMembers => object_complete (members_complete isMembers)

theorem elements_complete {pieces : List Piece} {inner : List Json} :
    Elements LitChars pieces inner → ElementsComplete pieces inner
  | .one before isValue after =>
      elements_complete_one before (value_complete isValue) after
  | .cons before isValue after others =>
      elements_complete_cons before (value_complete isValue) after
        (elements_complete others)

theorem members_complete {pieces : List Piece} {inner : List (Str × Json)} :
    Members LitChars pieces inner → MembersComplete pieces inner
  | .one before key middle colon isValue after =>
      members_complete_one before key middle colon (value_complete isValue) after
  | .cons before key middle colon isValue after others =>
      members_complete_cons before key middle colon (value_complete isValue) after
        (members_complete others)
end

/-- A JSON text with the scanner's literals, nested at most `maxDepth` deep,
passes, and the scanner keeps the absolute URLs among its string values. -/
theorem run_complete {pieces : List Piece} {document : Json}
    (parsed : JsonText LitChars pieces document) (depth : document.enclosing ≤ maxDepth) :
    ∃ kept, run (Piece.flat pieces) = .ok kept ∧
      kept.map FoundString.span = keptFrom 0 pieces := by
  obtain ⟨before, inner, after, beforeWs, isValue, afterWs, rfl⟩ := parsed
  have stops : Stops inNumber (after ++ []) := stops_of_ws afterWs (by simp [Stops])
  have enough : 3 * (Piece.flat inner).length + 1 ≤
      enoughFuel (before ++ (Piece.flat inner ++ (after ++ []))) := by
    have size := length_le_encode (before ++ (Piece.flat inner ++ (after ++ [])))
    simp only [enoughFuel, List.length_append] at size ⊢
    omega
  obtain ⟨kept, reads, spans⟩ := @value_complete _ _ isValue _ [] _ _ [] []
    beforeWs stops (by simpa using depth) enough
  refine ⟨kept, ?_, ?_⟩
  · have text : Piece.flat (.raw before :: inner ++ [.raw after]) =
        before ++ (Piece.flat inner ++ (after ++ [])) := by simp
    rw [text, run, start_eq, reads, Scan.ok_bind,
      skipWs_complete afterWs (by simp [Stops])]
    simp
  · simp [spans, keptFrom_append]

end Scanner

/-- The scanner accepts the texts of its lenient grammar. -/
theorem scan_isSome_iff {text : Str} :
    (scan text).isSome ↔ ∃ pieces document, text = Piece.flat pieces ∧
      JsonText LitChars pieces document ∧ document.enclosing ≤ maxDepth := by
  constructor
  · intro accepted
    rw [scan] at accepted
    split at accepted
    · next kept run => exact Scanner.run_sound run
    · simp at accepted
  · rintro ⟨pieces, document, rfl, parsed, depth⟩
    obtain ⟨kept, run, -⟩ := Scanner.run_complete parsed depth
    simp [scan, run]

end Proxemby
