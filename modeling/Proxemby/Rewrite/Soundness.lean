import Proxemby.Rewrite.Literals

/-!
# What the scanner accepts is JSON

The recursive scanner against the grammar of JSON texts.  The induction is on the
fuel, with one lemma for each scanning function: what a function reads is what the
grammar allows there, with at most `maxDepth` containers around each value.
-/

namespace Proxemby

open Utf8 Rfc8259

namespace Scanner

variable {read rest : Str} {stack : List Segment} {found : List FoundString}

theorem skipWs_sound (read rest : Str) (stack : List Segment) (found : List FoundString) :
    ∃ ws tail, rest = ws ++ tail ∧ IsWs ws ∧
      (between read rest stack found).skipWs = between (read ++ ws) tail stack found :=
  ⟨rest.takeWhile isWs, rest.dropWhile isWs, List.takeWhile_append_dropWhile.symm,
    fun _ member => List.mem_takeWhile_imp member, between_skipWs⟩

theorem skipWs_complete {ws : Str} (isWs : IsWs ws) (stops : Stops Rfc8259.isWs rest) :
    (between read (ws ++ rest) stack found).skipWs =
      between (read ++ ws) rest stack found := by
  obtain ⟨taken, left⟩ := takeWhile_of_stops isWs stops
  rw [between_skipWs, taken, left]

/-- `value` reads white space and a value. -/
def ValueSound (fuel : Nat) : Prop :=
  ∀ {read rest stack found s}, value fuel (between read rest stack found) = .ok s →
    ∃ ws pieces document tail found', rest = ws ++ (Piece.flat pieces ++ tail) ∧ IsWs ws ∧
      Value LitChars pieces document ∧ stack.length + document.enclosing ≤ maxDepth ∧
      s = between (read ++ ws ++ Piece.flat pieces) tail stack found'

/-- The loop of `object` reads members and the closing brace. -/
def MembersSound (fuel : Nat) : Prop :=
  ∀ {read rest stack found s}, members fuel (between read rest stack found) = .ok s →
    ∃ pieces inner tail found', rest = Piece.flat pieces ++ '}' :: tail ∧
      Members LitChars pieces inner ∧
      stack.length + Json.enclosingMembers inner ≤ maxDepth ∧
      s = between (read ++ Piece.flat pieces ++ ['}']) tail stack found'

/-- The loop of `array` reads elements and the closing bracket. -/
def ElementsSound (fuel : Nat) : Prop :=
  ∀ {index read rest stack found s},
    elements fuel index (between read rest stack found) = .ok s →
    ∃ pieces inner tail found', rest = Piece.flat pieces ++ ']' :: tail ∧
      Elements LitChars pieces inner ∧
      stack.length + Json.enclosingElements inner ≤ maxDepth ∧
      s = between (read ++ Piece.flat pieces ++ [']']) tail stack found'

theorem elements_sound_step {fuel : Nat} (valueSound : ValueSound fuel)
    (elementsSound : ElementsSound fuel) : ElementsSound (fuel + 1) := by
  intro index read rest stack found s accepted
  simp only [elements, between_push, Scan.bind_eq_ok] at accepted
  obtain ⟨_, element, accepted⟩ := accepted
  obtain ⟨before, pieces, document, tail, found₁, rfl, beforeWs, isValue, depth, rfl⟩ :=
    valueSound element
  rw [between_pop] at accepted
  obtain ⟨after, tail, rfl, afterWs, skipped⟩ :=
    skipWs_sound (read ++ before ++ Piece.flat pieces) tail stack found₁
  rw [skipped] at accepted
  rw [List.length_append, List.length_singleton] at depth
  split at accepted
  · next b next =>
      split at accepted
      · next comma =>
          subst comma
          obtain ⟨tail, rfl⟩ := (byte?_iff ',' (by decide)).mp next
          rw [between_advance_one (by decide)] at accepted
          obtain ⟨pieces', inner, tail, found', rfl, isElements, depth', rfl⟩ :=
            elementsSound accepted
          refine ⟨_, _, tail, found', ?_, .cons beforeWs isValue afterWs isElements, ?_, ?_⟩
          · simp
          · simp only [Json.enclosingElements]
            omega
          · simp
      · split at accepted
        · next bracket =>
            subst bracket
            obtain ⟨tail, rfl⟩ := (byte?_iff ']' (by decide)).mp next
            rw [between_advance_one (by decide), Scan.ok.injEq] at accepted
            subst accepted
            refine ⟨_, _, tail, found₁, ?_, .one beforeWs isValue afterWs, ?_, ?_⟩
            · simp
            · simp only [Json.enclosingElements]
              omega
            · simp
        · simp at accepted
  · simp at accepted

theorem members_sound_step {fuel : Nat} (valueSound : ValueSound fuel)
    (membersSound : MembersSound fuel) : MembersSound (fuel + 1) := by
  intro read rest stack found s accepted
  obtain ⟨before, tail, rfl, beforeWs, skipped⟩ := skipWs_sound read rest stack found
  simp only [members, skipped, ne_eq, ite_not] at accepted
  split at accepted
  swap
  · simp at accepted
  next quote =>
    obtain ⟨tail, rfl⟩ := (byte?_iff '"' (by decide)).mp quote
    simp only [Scan.bind_eq_ok] at accepted
    obtain ⟨⟨name, _⟩, keyOk, accepted⟩ := accepted
    obtain ⟨key, tail, rfl, keyLit, rfl⟩ := string_sound keyOk
    obtain ⟨middle, tail, rfl, middleWs, skipped⟩ :=
      skipWs_sound (read ++ before ++ '"' :: key ++ ['"']) tail stack found
    simp only [skipped] at accepted
    split at accepted
    swap
    · simp at accepted
    next colonNext =>
      obtain ⟨tail, rfl⟩ := (byte?_iff ':' (by decide)).mp colonNext
      rw [between_advance_one (by decide), between_push, Scan.bind_eq_ok] at accepted
      obtain ⟨_, memberOk, accepted⟩ := accepted
      obtain ⟨colon, pieces, document, tail, found₁, rfl, colonWs, isValue, depth, rfl⟩ :=
        valueSound memberOk
      rw [between_pop] at accepted
      obtain ⟨after, tail, rfl, afterWs, skipped⟩ := skipWs_sound _ tail stack found₁
      rw [skipped] at accepted
      rw [List.length_append, List.length_singleton] at depth
      split at accepted
      · next b next =>
          split at accepted
          · next comma =>
              subst comma
              obtain ⟨tail, rfl⟩ := (byte?_iff ',' (by decide)).mp next
              rw [between_advance_one (by decide)] at accepted
              obtain ⟨pieces', inner, tail, found', rfl, isMembers, depth', rfl⟩ :=
                membersSound accepted
              refine ⟨_, _, tail, found', ?_,
                .cons beforeWs keyLit middleWs colonWs isValue afterWs isMembers, ?_, ?_⟩
              · simp
              · simp only [Json.enclosingMembers]
                omega
              · simp
          · split at accepted
            · next brace =>
                subst brace
                obtain ⟨tail, rfl⟩ := (byte?_iff '}' (by decide)).mp next
                rw [between_advance_one (by decide), Scan.ok.injEq] at accepted
                subst accepted
                refine ⟨_, _, tail, found₁, ?_,
                  .one beforeWs keyLit middleWs colonWs isValue afterWs, ?_, ?_⟩
                · simp
                · simp only [Json.enclosingMembers]
                  omega
                · simp
            · simp at accepted
      · simp at accepted

/-- White space before the first member may be read ahead of it. -/
theorem members_indent {Lit : Str → Str → Prop} {pieces : List Piece}
    {inner : List (Str × Json)} {ws : Str} (isWs : IsWs ws)
    (isMembers : Members Lit pieces inner) :
    ∃ pieces', Members Lit pieces' inner ∧ Piece.flat pieces' = ws ++ Piece.flat pieces := by
  have joined : ∀ {before : Str}, IsWs before → IsWs (ws ++ before) := by
    intro before beforeWs c member
    rcases List.mem_append.mp member with member | member
    · exact isWs c member
    · exact beforeWs c member
  cases isMembers with
  | one before key middle colon isValue after =>
      exact ⟨_, .one (joined before) key middle colon isValue after, by simp⟩
  | cons before key middle colon isValue after others =>
      exact ⟨_, .cons (joined before) key middle colon isValue after others, by simp⟩

/-- White space before the first element may be read ahead of it. -/
theorem elements_indent {Lit : Str → Str → Prop} {pieces : List Piece}
    {inner : List Json} {ws : Str} (isWs : IsWs ws) (isElements : Elements Lit pieces inner) :
    ∃ pieces', Elements Lit pieces' inner ∧ Piece.flat pieces' = ws ++ Piece.flat pieces := by
  have joined : ∀ {before : Str}, IsWs before → IsWs (ws ++ before) := by
    intro before beforeWs c member
    rcases List.mem_append.mp member with member | member
    · exact isWs c member
    · exact beforeWs c member
  cases isElements with
  | one before isValue after => exact ⟨_, .one (joined before) isValue after, by simp⟩
  | cons before isValue after others =>
      exact ⟨_, .cons (joined before) isValue after others, by simp⟩

theorem object_sound {fuel : Nat} (membersSound : MembersSound fuel) {s : Scanner}
    (depth : stack.length ≤ maxDepth)
    (accepted : object (fuel + 1) (between read ('{' :: rest) stack found) = .ok s) :
    ∃ pieces document tail found', '{' :: rest = Piece.flat pieces ++ tail ∧
      Value LitChars pieces document ∧ stack.length + document.enclosing ≤ maxDepth ∧
      s = between (read ++ Piece.flat pieces) tail stack found' := by
  rw [object, between_advance_one (by decide)] at accepted
  obtain ⟨ws, tail, rfl, isWs, skipped⟩ := skipWs_sound (read ++ ['{']) rest stack found
  simp only [skipped] at accepted
  split at accepted
  · next brace =>
      obtain ⟨tail, rfl⟩ := (byte?_iff '}' (by decide)).mp brace
      rw [between_advance_one (by decide), Scan.ok.injEq] at accepted
      subst accepted
      exact ⟨_, _, tail, found, by simp, .emptyObject isWs,
        by simpa [Json.enclosing, Json.enclosingMembers] using depth, by simp⟩
  · obtain ⟨pieces, inner, tail, found', rfl, isMembers, depth', rfl⟩ :=
      membersSound accepted
    obtain ⟨pieces, isMembers, same⟩ := members_indent isWs isMembers
    exact ⟨_, _, tail, found', by simp [same], .object isMembers,
      by simpa [Json.enclosing] using depth', by simp [same]⟩

theorem array_sound {fuel : Nat} (elementsSound : ElementsSound fuel) {s : Scanner}
    (depth : stack.length ≤ maxDepth)
    (accepted : array (fuel + 1) (between read ('[' :: rest) stack found) = .ok s) :
    ∃ pieces document tail found', '[' :: rest = Piece.flat pieces ++ tail ∧
      Value LitChars pieces document ∧ stack.length + document.enclosing ≤ maxDepth ∧
      s = between (read ++ Piece.flat pieces) tail stack found' := by
  rw [array, between_advance_one (by decide)] at accepted
  obtain ⟨ws, tail, rfl, isWs, skipped⟩ := skipWs_sound (read ++ ['[']) rest stack found
  simp only [skipped] at accepted
  split at accepted
  · next bracket =>
      obtain ⟨tail, rfl⟩ := (byte?_iff ']' (by decide)).mp bracket
      rw [between_advance_one (by decide), Scan.ok.injEq] at accepted
      subst accepted
      exact ⟨_, _, tail, found, by simp, .emptyArray isWs,
        by simpa [Json.enclosing, Json.enclosingElements] using depth, by simp⟩
  · obtain ⟨pieces, inner, tail, found', rfl, isElements, depth', rfl⟩ :=
      elementsSound accepted
    obtain ⟨pieces, isElements, same⟩ := elements_indent isWs isElements
    exact ⟨_, _, tail, found', by simp [same], .array isElements,
      by simpa [Json.enclosing] using depth', by simp [same]⟩

theorem stringValue_sound {s : Scanner}
    (accepted : (between read ('"' :: rest) stack found).stringValue = .ok s) :
    ∃ src value tail found', '"' :: rest = Piece.flat [.string src value] ++ tail ∧
      LitChars src value ∧
      s = between (read ++ Piece.flat [.string src value]) tail stack found' := by
  simp only [stringValue, Scan.bind_eq_ok] at accepted
  obtain ⟨⟨value, _⟩, literal, kept⟩ := accepted
  obtain ⟨src, tail, rfl, lit, rfl⟩ := string_sound literal
  split at kept
  · rw [Scan.pure_eq, Scan.ok.injEq] at kept
    subst kept
    exact ⟨src, value, tail, _, by simp, lit, by simp [between]; rfl⟩
  · rw [Scan.pure_eq, Scan.ok.injEq] at kept
    subst kept
    exact ⟨src, value, tail, found, by simp, lit, by simp⟩

theorem value_sound_step {fuel : Nat} (membersSound : ∀ m < fuel, MembersSound m)
    (elementsSound : ∀ m < fuel, ElementsSound m) : ValueSound (fuel + 1) := by
  intro read rest stack found s accepted
  obtain ⟨ws, tail, rfl, isWs, skipped⟩ := skipWs_sound read rest stack found
  simp only [value, between_stack, skipped] at accepted
  split at accepted
  · simp at accepted
  next shallow =>
  have depth : stack.length ≤ maxDepth := Nat.le_of_not_lt shallow
  -- A value without containers, with its own text.
  have scalar : ∀ {pieces document tail' found'}, tail = Piece.flat pieces ++ tail' →
      Value LitChars pieces document → document.enclosing = 0 →
      s = between (read ++ ws ++ Piece.flat pieces) tail' stack found' →
      ∃ ws' pieces document tail' found', ws ++ tail = ws' ++ (Piece.flat pieces ++ tail') ∧
        IsWs ws' ∧ Value LitChars pieces document ∧
        stack.length + document.enclosing ≤ maxDepth ∧
        s = between (read ++ ws' ++ Piece.flat pieces) tail' stack found' := by
    rintro pieces document tail' found' rfl isValue flat rfl
    exact ⟨ws, pieces, document, tail', found', rfl, isWs, isValue, by omega, rfl⟩
  split at accepted
  · simp at accepted
  next b next =>
  split at accepted
  · next brace =>
      subst brace
      obtain ⟨tail, rfl⟩ := (byte?_iff '{' (by decide)).mp next
      cases fuel with
      | zero => simp [object] at accepted
      | succ fuel =>
          obtain ⟨pieces, document, tail', found', same, isValue, deep, rfl⟩ :=
            object_sound (membersSound fuel (Nat.lt_succ_self fuel)) depth accepted
          exact ⟨ws, pieces, document, tail', found', by rw [same], isWs, isValue, deep, rfl⟩
  split at accepted
  · next bracket =>
      subst bracket
      obtain ⟨tail, rfl⟩ := (byte?_iff '[' (by decide)).mp next
      cases fuel with
      | zero => simp [array] at accepted
      | succ fuel =>
          obtain ⟨pieces, document, tail', found', same, isValue, deep, rfl⟩ :=
            array_sound (elementsSound fuel (Nat.lt_succ_self fuel)) depth accepted
          exact ⟨ws, pieces, document, tail', found', by rw [same], isWs, isValue, deep, rfl⟩
  split at accepted
  · next quote =>
      subst quote
      obtain ⟨tail, rfl⟩ := (byte?_iff '"' (by decide)).mp next
      obtain ⟨src, read', tail', found', same, lit, rfl⟩ := stringValue_sound accepted
      exact scalar same (.string lit) rfl rfl
  split at accepted
  · obtain ⟨tail', rfl, rfl⟩ := (literal_eq_ok (by decide)).mp accepted
    exact @scalar _ _ tail' found (by simp) .true rfl (by simp)
  split at accepted
  · obtain ⟨tail', rfl, rfl⟩ := (literal_eq_ok (by decide)).mp accepted
    exact @scalar _ _ tail' found (by simp) .false rfl (by simp)
  split at accepted
  · obtain ⟨tail', rfl, rfl⟩ := (literal_eq_ok (by decide)).mp accepted
    exact @scalar _ _ tail' found (by simp) .null rfl (by simp)
  split at accepted
  · obtain ⟨lexeme, tail', rfl, isNumber, rfl⟩ := number_sound accepted
    exact @scalar _ _ tail' found (by simp) (.number isNumber) rfl (by simp)
  · simp at accepted

theorem sound (fuel : Nat) :
    ValueSound fuel ∧ MembersSound fuel ∧ ElementsSound fuel := by
  induction fuel using Nat.strongRecOn with
  | ind fuel ih =>
      cases fuel with
      | zero =>
          refine ⟨?_, ?_, ?_⟩
          · intro _ _ _ _ _ accepted
            simp [value] at accepted
          · intro _ _ _ _ _ accepted
            simp [members] at accepted
          · intro _ _ _ _ _ _ accepted
            simp [elements] at accepted
      | succ fuel =>
          obtain ⟨valueSound, membersSound, elementsSound⟩ := ih fuel (Nat.lt_succ_self fuel)
          refine ⟨value_sound_step ?_ ?_, members_sound_step valueSound membersSound,
            elements_sound_step valueSound elementsSound⟩
          · exact fun m below => (ih m (Nat.lt_succ_of_lt below)).2.1
          · exact fun m below => (ih m (Nat.lt_succ_of_lt below)).2.2

/-- A text that passes is a JSON text with the scanner's literals, nested at most
`maxDepth` deep. -/
theorem run_sound {text : Str} {kept : List FoundString} (accepted : run text = .ok kept) :
    ∃ pieces document, text = Piece.flat pieces ∧ JsonText LitChars pieces document ∧
      document.enclosing ≤ maxDepth := by
  simp only [run, start_eq, Scan.bind_eq_ok] at accepted
  obtain ⟨_, valueOk, ended⟩ := accepted
  obtain ⟨before, pieces, document, tail, found', rfl, beforeWs, isValue, depth, rfl⟩ :=
    (sound _).1 valueOk
  obtain ⟨after, tail, rfl, afterWs, skipped⟩ := skipWs_sound _ tail [] found'
  rw [skipped] at ended
  split at ended
  · simp at ended
  · next finished =>
      rw [ne_eq, not_not, between_pos, between_bytes, List.length_append,
        Nat.left_eq_add, List.length_eq_zero_iff, encode_eq_nil] at finished
      subst finished
      exact ⟨_, document, by simp, ⟨before, pieces, after, beforeWs, isValue, afterWs, rfl⟩,
        by simpa using depth⟩

end Scanner

end Proxemby
