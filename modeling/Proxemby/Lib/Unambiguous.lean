import Proxemby.Lib.Rfc8259

/-!
# One document for a text

The grammar of RFC 8259 is unambiguous: a text denotes at most one document, provided that
a string literal denotes at most one string.
-/

namespace Rfc8259

open Piece

/-! ## Runs of characters -/

/-- A run of one kind of characters ends where another kind follows. -/
theorem run_unique {α : Type*} {test : α → Bool} {run run' : List α} {rest rest' : List α}
    (inRun : ∀ c ∈ run, test c = true) (inRun' : ∀ c ∈ run', test c = true)
    (stops : ∀ c, rest.head? = some c → test c = false)
    (stops' : ∀ c, rest'.head? = some c → test c = false)
    (same : run ++ rest = run' ++ rest') : run = run' ∧ rest = rest' := by
  have cut {run rest : List α} (inRun : ∀ c ∈ run, test c = true)
      (stops : ∀ c, rest.head? = some c → test c = false) :
      (run ++ rest).takeWhile test = run := by
    rw [List.takeWhile_append_of_pos inRun]
    cases rest with
    | nil => simp
    | cons c rest => simp [stops c rfl]
  have runs : run = run' := by rw [← cut inRun stops, same, cut inRun' stops']
  exact ⟨runs, List.append_cancel_left (runs ▸ same)⟩

/-- White space ends where something else follows. -/
theorem IsWs.unique {ws ws' rest rest' : List Char} {c c' : Char} (isWs : IsWs ws)
    (isWs' : IsWs ws') (stop : Rfc8259.isWs c = false) (stop' : Rfc8259.isWs c' = false)
    (same : ws ++ c :: rest = ws' ++ c' :: rest') : c = c' ∧ rest = rest' := by
  have head {c : Char} (stop : Rfc8259.isWs c = false) (rest : List Char) :
      ∀ d, (c :: rest).head? = some d → Rfc8259.isWs d = false := by
    rintro d first
    obtain rfl := Option.some.inj first
    exact stop
  have rests := (run_unique isWs isWs' (head stop rest) (head stop' rest') same).2
  exact List.cons.inj rests

/-- The characters of numbers. -/
def isNumberChar (c : Char) : Bool :=
  isDigit c || c == '-' || c == '+' || c == '.' || c == 'e' || c == 'E'

theorem IsNumber.chars {lexeme : List Char} (isNumber : IsNumber lexeme) :
    ∀ c ∈ lexeme, isNumberChar c = true := by
  have digits {text : List Char} (all : ∀ c ∈ text, isDigit c = true) :
      ∀ c ∈ text, isNumberChar c = true := by
    intro c member
    simp [isNumberChar, all c member]
  obtain ⟨minus, int, frac, exp, rfl, isMinus, isInt, isFrac, isExp⟩ := isNumber
  simp only [List.forall_mem_append]
  refine ⟨⟨⟨?_, ?_⟩, ?_⟩, ?_⟩
  · rcases isMinus with rfl | rfl <;> decide
  · rcases isInt with rfl | ⟨first, rest, rfl, digit, -, all⟩
    · decide
    · exact digits (List.forall_mem_cons.mpr ⟨digit, all⟩)
  · rcases isFrac with rfl | ⟨text, rfl, isDigits⟩
    · simp
    · exact List.forall_mem_cons.mpr ⟨by decide, digits isDigits.2⟩
  · rcases isExp with rfl | ⟨e, sign, text, rfl, isE, isSign, isDigits⟩
    · simp
    · simp only [List.forall_mem_append, List.forall_mem_cons]
      refine ⟨⟨?_, ?_⟩, digits isDigits.2⟩
      · rcases isE with rfl | rfl <;> decide
      · rcases isSign with rfl | rfl | rfl <;> decide

/-- A text that does not go on with a number. -/
def Stops (rest : List Char) : Prop := ∀ c, rest.head? = some c → isNumberChar c = false

theorem stops_ws {ws : List Char} (isWs : IsWs ws) : Stops ws := by
  intro c first
  have blank := isWs c (List.mem_of_mem_head? first)
  simp only [Rfc8259.isWs, Bool.or_eq_true, beq_iff_eq] at blank
  rcases blank with ((rfl | rfl) | rfl) | rfl <;> decide

theorem stops_ws_append {ws rest : List Char} {stop : Char} (isWs : IsWs ws)
    (isStop : isNumberChar stop = false) : Stops (ws ++ stop :: rest) := by
  cases ws with
  | nil =>
      intro c first
      obtain rfl := Option.some.inj first
      exact isStop
  | cons w ws =>
      intro c first
      exact stops_ws isWs c first

/-- A character that neither goes on with a number nor is white space. -/
def IsStop (c : Char) : Prop := isNumberChar c = false ∧ isWs c = false

theorem isStop_comma : IsStop ',' := by unfold IsStop; decide

theorem isStop_bracket : IsStop ']' := by unfold IsStop; decide

theorem isStop_brace : IsStop '}' := by unfold IsStop; decide

/-! ## First characters -/

namespace Json

/-- The kind of a value, which its first character tells. -/
def kind : Json → Nat
  | .null => 0
  | .bool true => 1
  | .bool false => 2
  | .number _ => 3
  | .string _ => 4
  | .array _ => 5
  | .object _ => 6

end Json

/-- The kind of the values that begin with a character, if there are any. -/
def kindOf (c : Char) : Option Nat :=
  if c = 'n' then some 0
  else if c = 't' then some 1
  else if c = 'f' then some 2
  else if isDigit c || c == '-' then some 3
  else if c = '"' then some 4
  else if c = '[' then some 5
  else if c = '{' then some 6
  else none

theorem isWs_of_kindOf {c : Char} {kind : Nat} (leads : kindOf c = some kind) :
    isWs c = false := by
  by_contra blank
  simp only [Bool.not_eq_false, isWs, Bool.or_eq_true, beq_iff_eq] at blank
  rcases blank with ((rfl | rfl) | rfl) | rfl <;> cases leads

theorem kindOf_digit {c : Char} (digit : isDigit c = true) : kindOf c = some 3 := by
  have letters : c ≠ 'n' ∧ c ≠ 't' ∧ c ≠ 'f' := by
    refine ⟨?_, ?_, ?_⟩ <;> rintro rfl <;> exact absurd digit (by decide)
  simp [kindOf, letters, digit]

variable {Lit : List Char → List Char → Prop}

theorem Value.first {pieces : List Piece} {document : Json} (value : Value Lit pieces document) :
    ∃ c rest, flat pieces = c :: rest ∧ kindOf c = some document.kind := by
  cases value with
  | null => exact ⟨'n', _, rfl, rfl⟩
  | true => exact ⟨'t', _, rfl, rfl⟩
  | false => exact ⟨'f', _, rfl, rfl⟩
  | @number lexeme isNumber =>
      obtain ⟨minus, int, frac, exp, rfl, isMinus, isInt, -, -⟩ := isNumber
      rcases isMinus with rfl | rfl
      · rcases isInt with rfl | ⟨first, digits, rfl, digit, -, -⟩
        · exact ⟨'0', frac ++ exp, by simp, rfl⟩
        · exact ⟨first, digits ++ (frac ++ exp), by simp, kindOf_digit digit⟩
      · exact ⟨'-', int ++ (frac ++ exp), by simp, rfl⟩
  | @string source value _ => exact ⟨'"', source ++ ['"'], by simp, rfl⟩
  | @emptyArray ws _ => exact ⟨'[', ws ++ [']'], by simp, rfl⟩
  | @array pieces elements _ => exact ⟨'[', flat pieces ++ [']'], by simp, rfl⟩
  | @emptyObject ws _ => exact ⟨'{', ws ++ ['}'], by simp, rfl⟩
  | @object pieces members _ => exact ⟨'{', flat pieces ++ ['}'], by simp, rfl⟩

/-- A text begins with one value at most. -/
def IsUnique (Lit : List Char → List Char → Prop) (pieces : List Piece) (document : Json) : Prop :=
  ∀ ⦃rest : List Char⦄ ⦃pieces' : List Piece⦄ ⦃document' : Json⦄ ⦃rest' : List Char⦄,
    Stops rest → Value Lit pieces' document' → Stops rest' →
      flat pieces ++ rest = flat pieces' ++ rest' → document = document' ∧ rest = rest'

/-- A value in white space, up to the character behind it. -/
theorem IsUnique.item {before before' after after' rest rest' : List Char}
    {pieces pieces' : List Piece} {document document' : Json} {stop stop' : Char}
    (unique : IsUnique Lit pieces document) (value : Value Lit pieces document)
    (value' : Value Lit pieces' document') (beforeWs : IsWs before) (beforeWs' : IsWs before')
    (afterWs : IsWs after) (afterWs' : IsWs after')
    (isStop : IsStop stop)
    (isStop' : IsStop stop')
    (same : before ++ (flat pieces ++ (after ++ stop :: rest)) =
      before' ++ (flat pieces' ++ (after' ++ stop' :: rest'))) :
    document = document' ∧ stop = stop' ∧ rest = rest' := by
  obtain ⟨c, tail, text, leads⟩ := value.first
  obtain ⟨c', tail', text', leads'⟩ := value'.first
  have inner : flat pieces ++ (after ++ stop :: rest) =
      flat pieces' ++ (after' ++ stop' :: rest') := by
    rw [text, text', List.cons_append, List.cons_append] at same ⊢
    obtain ⟨rfl, rests⟩ :=
      beforeWs.unique beforeWs' (isWs_of_kindOf leads) (isWs_of_kindOf leads') same
    rw [rests]
  obtain ⟨documents, rests⟩ := unique (stops_ws_append afterWs isStop.1) value'
    (stops_ws_append afterWs' isStop'.1) inner
  exact ⟨documents, afterWs.unique afterWs' isStop.2 isStop'.2 rests⟩

/-- A literal ends in one place and is read in one way. -/
def UniqueLits (Lit : List Char → List Char → Prop) : Prop :=
  ∀ {source value source' value' rest rest' : List Char}, Lit source value →
    Lit source' value' → source ++ '"' :: rest = source' ++ '"' :: rest' →
      value = value' ∧ rest = rest'

theorem Value.kinds {pieces pieces' : List Piece} {document document' : Json}
    {rest rest' : List Char} (value : Value Lit pieces document)
    (value' : Value Lit pieces' document') (same : flat pieces ++ rest = flat pieces' ++ rest') :
    document.kind = document'.kind := by
  obtain ⟨c, tail, text, leads⟩ := value.first
  obtain ⟨c', tail', text', leads'⟩ := value'.first
  rw [text, text'] at same
  obtain rfl := (List.cons.inj same).1
  exact Option.some.inj (leads.symm.trans leads')

theorem Elements.first {pieces : List Piece} {values : List Json}
    (elements : Elements Lit pieces values) :
    ∃ before c rest kind, flat pieces = before ++ c :: rest ∧ IsWs before ∧
      kindOf c = some kind := by
  cases elements with
  | @one before after _ _ beforeWs value _ =>
      obtain ⟨c, tail, text, leads⟩ := value.first
      exact ⟨before, c, tail ++ after, _, by simp [text], beforeWs, leads⟩
  | @cons before after _ rest _ _ beforeWs value _ _ =>
      obtain ⟨c, tail, text, leads⟩ := value.first
      exact ⟨before, c, tail ++ (after ++ ',' :: flat rest), _, by simp [text], beforeWs, leads⟩

theorem Members.first {pieces : List Piece} {members : List (List Char × Json)}
    (isMembers : Members Lit pieces members) :
    ∃ before rest, flat pieces = before ++ '"' :: rest ∧ IsWs before := by
  cases isMembers with
  | one beforeWs => exact ⟨_, _, by simp; rfl, beforeWs⟩
  | cons beforeWs => exact ⟨_, _, by simp; rfl, beforeWs⟩

/-- No value begins where an array ends. -/
theorem Elements.nonempty {ws rest rest' : List Char} {pieces : List Piece} {values : List Json}
    (isWs : IsWs ws) (elements : Elements Lit pieces values) :
    ws ++ ']' :: rest ≠ flat pieces ++ ']' :: rest' := by
  intro same
  obtain ⟨before, c, tail, kind, text, beforeWs, leads⟩ := elements.first
  rw [text, List.append_assoc, List.cons_append] at same
  obtain ⟨rfl, -⟩ := isWs.unique beforeWs (by decide) (isWs_of_kindOf leads) same
  cases leads

theorem Members.nonempty {ws rest rest' : List Char} {pieces : List Piece}
    {members : List (List Char × Json)} (isWs : IsWs ws) (isMembers : Members Lit pieces members) :
    ws ++ '}' :: rest ≠ flat pieces ++ '}' :: rest' := by
  intro same
  obtain ⟨before, tail, text, beforeWs⟩ := isMembers.first
  rw [text, List.append_assoc, List.cons_append] at same
  obtain ⟨quote, -⟩ := isWs.unique beforeWs (by decide) (by decide) same
  cases quote

/-! ## Documents -/

/-- A member, up to the character behind it. -/
theorem IsUnique.member (lits : UniqueLits Lit)
    {before before' key key' name name' middle middle' colon colon' after after'
      rest rest' : List Char} {pieces pieces' : List Piece} {document document' : Json}
    {stop stop' : Char} (unique : IsUnique Lit pieces document)
    (value : Value Lit pieces document) (value' : Value Lit pieces' document')
    (beforeWs : IsWs before) (beforeWs' : IsWs before') (isKey : Lit key name)
    (isKey' : Lit key' name') (middleWs : IsWs middle) (middleWs' : IsWs middle')
    (colonWs : IsWs colon) (colonWs' : IsWs colon') (afterWs : IsWs after)
    (afterWs' : IsWs after') (isStop : IsStop stop)
    (isStop' : IsStop stop')
    (same : before ++ '"' :: (key ++ '"' :: (middle ++ ':' :: (colon ++ (flat pieces ++
        (after ++ stop :: rest))))) =
      before' ++ '"' :: (key' ++ '"' :: (middle' ++ ':' :: (colon' ++ (flat pieces' ++
        (after' ++ stop' :: rest')))))) :
    (name, document) = (name', document') ∧ stop = stop' ∧ rest = rest' := by
  obtain ⟨-, inKey⟩ := beforeWs.unique beforeWs' (by decide) (by decide) same
  obtain ⟨rfl, behindKey⟩ := lits isKey isKey' inKey
  obtain ⟨-, inValue⟩ := middleWs.unique middleWs' (by decide) (by decide) behindKey
  obtain ⟨rfl, stops, rests⟩ :=
    unique.item value value' colonWs colonWs' afterWs afterWs' isStop isStop' inValue
  exact ⟨rfl, stops, rests⟩

mutual
theorem Value.unique (lits : UniqueLits Lit) {pieces : List Piece} {document : Json} :
    Value Lit pieces document → IsUnique Lit pieces document
  | .null => by
      intro rest pieces' document' rest' stops value' stops' same
      have kinds := Value.null.kinds value' same
      cases value' <;> cases kinds
      exact ⟨rfl, List.append_cancel_left same⟩
  | .true => by
      intro rest pieces' document' rest' stops value' stops' same
      have kinds := Value.true.kinds value' same
      cases value' <;> cases kinds
      exact ⟨rfl, List.append_cancel_left same⟩
  | .false => by
      intro rest pieces' document' rest' stops value' stops' same
      have kinds := Value.false.kinds value' same
      cases value' <;> cases kinds
      exact ⟨rfl, List.append_cancel_left same⟩
  | .number isNumber => by
      intro rest pieces' document' rest' stops value' stops' same
      have kinds := (Value.number isNumber).kinds value' same
      cases value' <;> cases kinds
      next lexeme' isNumber' =>
      simp only [flat_cons, flat_nil, text_raw, List.append_nil] at same
      obtain ⟨rfl, rfl⟩ := run_unique isNumber.chars isNumber'.chars stops stops' same
      exact ⟨rfl, rfl⟩
  | .string isLit => by
      intro rest pieces' document' rest' stops value' stops' same
      have kinds := (Value.string isLit).kinds value' same
      cases value' <;> cases kinds
      next source' value' isLit' =>
      obtain ⟨rfl, rfl⟩ := lits isLit isLit' (by simpa using same)
      exact ⟨rfl, rfl⟩
  | .emptyArray isWs => by
      intro rest pieces' document' rest' stops value' stops' same
      have kinds := (Value.emptyArray isWs).kinds value' same
      cases value' <;> cases kinds
      · next ws' isWs' =>
        exact ⟨rfl, (isWs.unique isWs' isStop_bracket.2 isStop_bracket.2
          (by simpa using same)).2⟩
      · next pieces' elements' isElements' =>
        exact absurd (by simpa using same) (isElements'.nonempty isWs)
  | .array elements => by
      intro rest pieces' document' rest' stops value' stops' same
      have kinds := (Value.array elements).kinds value' same
      cases value' <;> cases kinds
      · next ws' isWs' =>
        exact absurd (by simpa using same.symm) (elements.nonempty isWs')
      · next pieces' elements' isElements' =>
        obtain ⟨rfl, rests⟩ := elements.unique lits isElements' (by simpa using same)
        exact ⟨rfl, rests⟩
  | .emptyObject isWs => by
      intro rest pieces' document' rest' stops value' stops' same
      have kinds := (Value.emptyObject isWs).kinds value' same
      cases value' <;> cases kinds
      · next ws' isWs' =>
        exact ⟨rfl, (isWs.unique isWs' isStop_brace.2 isStop_brace.2
          (by simpa using same)).2⟩
      · next pieces' members' isMembers' =>
        exact absurd (by simpa using same) (isMembers'.nonempty isWs)
  | .object members => by
      intro rest pieces' document' rest' stops value' stops' same
      have kinds := (Value.object members).kinds value' same
      cases value' <;> cases kinds
      · next ws' isWs' =>
        exact absurd (by simpa using same.symm) (members.nonempty isWs')
      · next pieces' members' isMembers' =>
        obtain ⟨rfl, rests⟩ := members.unique lits isMembers' (by simpa using same)
        exact ⟨rfl, rests⟩

theorem Elements.unique (lits : UniqueLits Lit) {pieces : List Piece} {values : List Json} :
    Elements Lit pieces values → ∀ ⦃pieces' : List Piece⦄ ⦃values' : List Json⦄
      ⦃rest rest' : List Char⦄, Elements Lit pieces' values' →
      flat pieces ++ ']' :: rest = flat pieces' ++ ']' :: rest' → values = values' ∧ rest = rest'
  | .one beforeWs value afterWs => by
      intro pieces' values' rest rest' elements' same
      have unique := value.unique lits
      cases elements' with
      | one beforeWs' value' afterWs' =>
          obtain ⟨rfl, -, rests⟩ := unique.item value value' beforeWs beforeWs' afterWs afterWs'
            isStop_bracket isStop_bracket (by simpa using same)
          exact ⟨rfl, rests⟩
      | cons beforeWs' value' afterWs' others' =>
          obtain ⟨-, stops, -⟩ := unique.item value value' beforeWs beforeWs' afterWs afterWs'
            isStop_bracket isStop_comma (by simpa using same)
          cases stops
  | .cons beforeWs value afterWs others => by
      intro pieces' values' rest rest' elements' same
      have unique := value.unique lits
      cases elements' with
      | one beforeWs' value' afterWs' =>
          obtain ⟨-, stops, -⟩ := unique.item value value' beforeWs beforeWs' afterWs afterWs'
            isStop_comma isStop_bracket (by simpa using same)
          cases stops
      | cons beforeWs' value' afterWs' others' =>
          obtain ⟨rfl, -, rests⟩ := unique.item value value' beforeWs beforeWs' afterWs afterWs'
            isStop_comma isStop_comma (by simpa using same)
          obtain ⟨rfl, rests⟩ := others.unique lits others' rests
          exact ⟨rfl, rests⟩

theorem Members.unique (lits : UniqueLits Lit) {pieces : List Piece}
    {members : List (List Char × Json)} :
    Members Lit pieces members → ∀ ⦃pieces' : List Piece⦄ ⦃members' : List (List Char × Json)⦄
      ⦃rest rest' : List Char⦄, Members Lit pieces' members' →
      flat pieces ++ '}' :: rest = flat pieces' ++ '}' :: rest' →
      members = members' ∧ rest = rest'
  | .one beforeWs key middleWs colonWs value afterWs => by
      intro pieces' members' rest rest' isMembers' same
      have unique := value.unique lits
      cases isMembers' with
      | one beforeWs' key' middleWs' colonWs' value' afterWs' =>
          obtain ⟨pairs, -, rests⟩ := unique.member lits value value' beforeWs beforeWs' key key'
            middleWs middleWs' colonWs colonWs' afterWs afterWs' isStop_brace isStop_brace
            (by simpa using same)
          exact ⟨by rw [pairs], rests⟩
      | cons beforeWs' key' middleWs' colonWs' value' afterWs' others' =>
          obtain ⟨-, stops, -⟩ := unique.member lits value value' beforeWs beforeWs' key key'
            middleWs middleWs' colonWs colonWs' afterWs afterWs' isStop_brace isStop_comma
            (by simpa using same)
          cases stops
  | .cons beforeWs key middleWs colonWs value afterWs others => by
      intro pieces' members' rest rest' isMembers' same
      have unique := value.unique lits
      cases isMembers' with
      | one beforeWs' key' middleWs' colonWs' value' afterWs' =>
          obtain ⟨-, stops, -⟩ := unique.member lits value value' beforeWs beforeWs' key key'
            middleWs middleWs' colonWs colonWs' afterWs afterWs' isStop_comma isStop_brace
            (by simpa using same)
          cases stops
      | cons beforeWs' key' middleWs' colonWs' value' afterWs' others' =>
          obtain ⟨pairs, -, rests⟩ := unique.member lits value value' beforeWs beforeWs' key key'
            middleWs middleWs' colonWs colonWs' afterWs afterWs' isStop_comma isStop_comma
            (by simpa using same)
          obtain ⟨rfl, rests⟩ := others.unique lits others' rests
          exact ⟨by rw [pairs], rests⟩
end

/-- A text is that of one document at most. -/
theorem JsonText.unique (lits : UniqueLits Lit) {pieces pieces' : List Piece}
    {document document' : Json}
    (parsed : JsonText Lit pieces document) (parsed' : JsonText Lit pieces' document')
    (same : flat pieces = flat pieces') : document = document' := by
  obtain ⟨before, inner, after, beforeWs, value, afterWs, rfl⟩ := parsed
  obtain ⟨before', inner', after', beforeWs', value', afterWs', rfl⟩ := parsed'
  obtain ⟨c, tail, text, leads⟩ := value.first
  obtain ⟨c', tail', text', leads'⟩ := value'.first
  have whole : before ++ c :: (tail ++ after) = before' ++ c' :: (tail' ++ after') := by
    simpa [text, text'] using same
  obtain ⟨rfl, rests⟩ :=
    beforeWs.unique beforeWs' (isWs_of_kindOf leads) (isWs_of_kindOf leads') whole
  refine (value.unique lits (stops_ws afterWs) value' (stops_ws afterWs') ?_).1
  rw [text, text', List.cons_append, List.cons_append, rests]

/-! ## Literals -/

/-- Escapes with the same text have the same digits. -/
theorem digits_unique {digits digits' rest rest' : List Char} {n n' : Nat}
    (length : digits.length = 4) (length' : digits'.length = 4)
    (number : hexNumber digits = some n) (number' : hexNumber digits' = some n')
    (same : digits ++ rest = digits' ++ rest') : n = n' ∧ rest = rest' := by
  obtain ⟨rfl, rests⟩ := List.append_inj same (length.trans length'.symm)
  exact ⟨Option.some.inj (number.symm.trans number'), rests⟩

/-- No character is a surrogate. -/
theorem not_isHighSurrogate {n : Nat} (valid : n.isValidChar) : ¬isHighSurrogate n = true := by
  rw [isHighSurrogate, Bool.and_eq_true, decide_eq_true_eq, decide_eq_true_eq]
  rcases valid with low | high <;> omega

/-- The literals of the grammar end in one place and denote one string. -/
theorem uniqueLits_denotes : UniqueLits Denotes := by
  intro source value source' value' rest rest' denotes denotes' same
  induction denotes generalizing source' value' with
  | nil =>
      cases denotes' with
      | nil => exact ⟨rfl, (List.cons.inj same).2⟩
      | unescaped plain _ => exact absurd (List.cons.inj same).1.symm plain.2.1
      | short _ _ => simp at same
      | unicode _ _ _ _ => simp at same
      | pair _ _ _ _ _ _ _ => simp at same
  | unescaped plain _ ih =>
      cases denotes' with
      | nil => exact absurd (List.cons.inj same).1 plain.2.1
      | unescaped plain' denotes' =>
          obtain ⟨rfl, tails⟩ := List.cons.inj same
          obtain ⟨rfl, rests⟩ := ih denotes' tails
          exact ⟨rfl, rests⟩
      | short _ _ => exact absurd (List.cons.inj same).1 plain.2.2
      | unicode _ _ _ _ => exact absurd (List.cons.inj same).1 plain.2.2
      | pair _ _ _ _ _ _ _ => exact absurd (List.cons.inj same).1 plain.2.2
  | short escape _ ih =>
      cases denotes' with
      | nil => simp at same
      | unescaped plain _ => exact absurd (List.cons.inj same).1.symm plain.2.2
      | short escape' denotes' =>
          obtain ⟨rfl, tails⟩ := List.cons.inj (List.cons.inj same).2
          obtain rfl := Option.some.inj (escape.symm.trans escape')
          obtain ⟨rfl, rests⟩ := ih denotes' tails
          exact ⟨rfl, rests⟩
      | unicode _ _ _ _ =>
          obtain ⟨rfl, -⟩ := List.cons.inj (List.cons.inj same).2
          cases escape
      | pair _ _ _ _ _ _ _ =>
          obtain ⟨rfl, -⟩ := List.cons.inj (List.cons.inj same).2
          cases escape
  | unicode length number valid _ ih =>
      cases denotes' with
      | nil => simp at same
      | unescaped plain _ => exact absurd (List.cons.inj same).1.symm plain.2.2
      | short escape' _ =>
          obtain ⟨rfl, -⟩ := List.cons.inj (List.cons.inj same).2
          cases escape'
      | unicode length' number' valid' denotes' =>
          obtain ⟨rfl, tails⟩ := digits_unique length length' number number' (by simpa using same)
          obtain ⟨rfl, rests⟩ := ih denotes' tails
          exact ⟨rfl, rests⟩
      | pair length' number' high _ _ _ _ =>
          obtain ⟨rfl, -⟩ := digits_unique length length' number number' (by simpa using same)
          exact absurd high (not_isHighSurrogate valid)
  | pair length number high length₂ number₂ low _ ih =>
      cases denotes' with
      | nil => simp at same
      | unescaped plain _ => exact absurd (List.cons.inj same).1.symm plain.2.2
      | short escape' _ =>
          obtain ⟨rfl, -⟩ := List.cons.inj (List.cons.inj same).2
          cases escape'
      | unicode length' number' valid _ =>
          obtain ⟨rfl, -⟩ := digits_unique length length' number number' (by simpa using same)
          exact absurd high (not_isHighSurrogate valid)
      | pair length' number' _ length₂' number₂' _ denotes' =>
          obtain ⟨rfl, tails⟩ := digits_unique length length' number number' (by simpa using same)
          have seconds := (List.cons.inj (List.cons.inj tails).2).2
          obtain ⟨rfl, rests⟩ := digits_unique length₂ length₂' number₂ number₂' seconds
          obtain ⟨rfl, rests⟩ := ih denotes' rests
          exact ⟨rfl, rests⟩

end Rfc8259
