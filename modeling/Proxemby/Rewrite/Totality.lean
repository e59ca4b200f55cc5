import Proxemby.Rewrite.Soundness

/-!
# The scanner always answers

No text makes the scanner panic, and `enoughFuel` is enough for every text: its
loops and its recursion end by themselves, with a result or with a refusal.
-/

namespace Proxemby

open Utf8 Rfc8259

/-- A step that ends with a result or with a refusal. -/
def Scan.Settled {α : Type} (step : Scan α) : Prop := step ≠ .panic ∧ step ≠ .fuel

namespace Scan

variable {α β : Type}

@[simp] theorem settled_ok (value : α) : (ok value).Settled := ⟨nofun, nofun⟩

@[simp] theorem settled_none : (none : Scan α).Settled := ⟨nofun, nofun⟩

@[simp] theorem settled_ofOption (found : Option α) : (ofOption found).Settled := by
  cases found <;> simp [ofOption]

theorem settled_bind {step : Scan α} {next : α → Scan β} (first : step.Settled)
    (second : ∀ value, step = ok value → (next value).Settled) :
    (step >>= next).Settled := by
  cases step with
  | ok value => exact second value rfl
  | none => exact settled_none
  | panic => exact absurd rfl first.1
  | fuel => exact absurd rfl first.2

end Scan

namespace Scanner

variable {read rest : Str} {stack : List Segment} {found : List FoundString}

/-! ## Words and numbers -/

theorem literal_settled {word : Str} (ascii : ∀ c ∈ word, c.toNat < 0x80) :
    ((between read rest stack found).literal (encode word)).Settled := by
  simp only [literal, between_pos, between_startsWith ascii, Scan.ok_bind]
  split <;> simp

theorem someDigits_settled (s : Scanner) : s.someDigits.Settled := by
  unfold someDigits
  split <;> simp

theorem number_settled (s : Scanner) : s.number.Settled := by
  have int : ∀ s : Scanner, s.intPart.Settled := by
    intro s
    unfold intPart
    repeat' split
    all_goals simp
  have frac : ∀ s : Scanner, s.fracPart.Settled := by
    intro s
    unfold fracPart
    split
    · exact someDigits_settled _
    · simp
  have exp : ∀ s : Scanner, s.expPart.Settled := by
    intro s
    unfold expPart
    split
    · exact someDigits_settled _
    · simp
  refine Scan.settled_bind (int _) fun s₁ _ => ?_
  refine Scan.settled_bind (frac _) fun s₂ _ => ?_
  refine Scan.settled_bind (exp _) fun s₃ _ => ?_
  split <;> simp

/-! ## Strings -/

theorem hex4_settled (s : Scanner) : s.hex4.Settled :=
  Scan.settled_bind (Scan.settled_ofOption _) fun _ _ =>
    Scan.settled_bind (Scan.settled_ofOption _) fun _ _ => Scan.settled_ok _

theorem escape_settled : (between read rest stack found).escape.Settled := by
  unfold escape
  split
  · simp
  · next b lead =>
      split
      · next u =>
          subst u
          obtain ⟨tail, rfl⟩ := (byte?_iff 'u' (by decide)).mp lead
          refine Scan.settled_bind (hex4_settled _) fun result hex => ?_
          obtain ⟨high, s⟩ := result
          obtain ⟨digits, tail, rfl, four, number, rfl⟩ := hex4_sound hex
          dsimp only
          rw [pairs_eq four number, Scan.ok_bind]
          split
          · exact Scan.settled_bind (hex4_settled _) fun _ _ => Scan.settled_ok _
          · exact Scan.settled_ok _
      · split <;> simp

theorem escaped_settled {fuel : Nat} {out : Str} (enough : rest.length < fuel) :
    (escaped fuel out (between read rest stack found)).Settled := by
  induction fuel generalizing read rest out with
  | zero => omega
  | succ fuel ih =>
      cases rest with
      | nil =>
          have next : (between read [] stack found).byte? = none := by
            rw [between_byte?]
            rfl
          simp [escaped, next]
      | cons c rest =>
          rw [List.length_cons] at enough
          rw [escaped_cons]
          split
          · simp
          split
          · refine Scan.settled_bind escape_settled fun result escape => ?_
            obtain ⟨esc, tail, rfl, isEscape, advanced⟩ := escape_sound (s := result.2) escape
            rw [advanced]
            rw [List.length_append] at enough
            exact ih (by omega)
          split
          · simp
          · exact ih (by omega)

theorem string_settled : (between read ('"' :: rest) stack found).string.Settled := by
  cases run : plainFrom (encode rest) (encode (read ++ ['"'])).length with
  | none =>
      simp only [string, between_advance_one (c := '"') (by decide), between_bytes,
        between_pos, List.drop_left, run]
      exact Scan.settled_none
  | some result =>
      obtain ⟨plain, tail, rfl, all, -⟩ := @plainFrom_sound _ _ result.2 result.1 run
      cases result.1 with
      | true =>
          simp [string_closed all]
      | false =>
          simp only [Bool.false_eq_true, ↓reduceIte, string_open all]
          exact escaped_settled (Nat.lt_succ_of_le (length_le_encode _))

theorem stringValue_settled :
    (between read ('"' :: rest) stack found).stringValue.Settled := by
  refine Scan.settled_bind string_settled fun result _ => ?_
  dsimp only
  split <;> exact Scan.settled_ok _

/-! ## Values -/

/-- With this much fuel the function answers. -/
def ValueSettled (fuel : Nat) : Prop :=
  ∀ {read rest stack found}, 3 * rest.length + 1 ≤ fuel →
    (value fuel (between read rest stack found)).Settled

def MembersSettled (fuel : Nat) : Prop :=
  ∀ {read rest stack found}, 3 * rest.length + 2 ≤ fuel →
    (members fuel (between read rest stack found)).Settled

def ElementsSettled (fuel : Nat) : Prop :=
  ∀ {index read rest stack found}, 3 * rest.length + 2 ≤ fuel →
    (elements fuel index (between read rest stack found)).Settled

theorem elements_settled_step {fuel : Nat} (valueSettled : ValueSettled fuel)
    (elementsSettled : ElementsSettled fuel) : ElementsSettled (fuel + 1) := by
  intro index read rest stack found enough
  rw [elements, between_push]
  refine Scan.settled_bind (valueSettled (by omega)) fun s element => ?_
  obtain ⟨before, pieces, document, tail, found₁, rfl, -, -, -, rfl⟩ := (sound fuel).1 element
  obtain ⟨after, tail, rfl, -, skipped⟩ :=
    skipWs_sound (read ++ before ++ Piece.flat pieces) tail stack found₁
  rw [between_pop, skipped]
  dsimp only
  split
  · next b next =>
      split
      · next comma =>
          subst comma
          obtain ⟨tail, rfl⟩ := (byte?_iff ',' (by decide)).mp next
          rw [between_advance_one (by decide)]
          simp only [List.length_append, List.length_cons] at enough
          exact elementsSettled (by omega)
      · split <;> simp
  · simp

theorem members_settled_step {fuel : Nat} (valueSettled : ValueSettled fuel)
    (membersSettled : MembersSettled fuel) : MembersSettled (fuel + 1) := by
  intro read rest stack found enough
  obtain ⟨before, tail, rfl, -, skipped⟩ := skipWs_sound read rest stack found
  rw [members, skipped]
  dsimp only
  split
  · simp
  next quote =>
    rw [ne_eq, not_not] at quote
    obtain ⟨tail, rfl⟩ := (byte?_iff '"' (by decide)).mp quote
    refine Scan.settled_bind string_settled fun result keyOk => ?_
    obtain ⟨name, s⟩ := result
    obtain ⟨key, tail, rfl, -, rfl⟩ := string_sound keyOk
    obtain ⟨middle, tail, rfl, -, skipped⟩ :=
      skipWs_sound (read ++ before ++ '"' :: key ++ ['"']) tail stack found
    dsimp only
    rw [skipped]
    split
    · simp
    next colonNext =>
      rw [not_not] at colonNext
      obtain ⟨tail, rfl⟩ := (byte?_iff ':' (by decide)).mp colonNext
      simp only [List.length_append, List.length_cons] at enough
      rw [between_advance_one (by decide), between_push]
      refine Scan.settled_bind (valueSettled (by omega)) fun s memberOk => ?_
      obtain ⟨colon, pieces, document, tail, found₁, rfl, -, -, -, rfl⟩ :=
        (sound fuel).1 memberOk
      obtain ⟨after, tail, rfl, -, skipped⟩ := skipWs_sound _ tail stack found₁
      rw [between_pop, skipped]
      split
      · next b next =>
          split
          · next comma =>
              subst comma
              obtain ⟨tail, rfl⟩ := (byte?_iff ',' (by decide)).mp next
              rw [between_advance_one (by decide)]
              simp only [List.length_append, List.length_cons] at enough
              exact membersSettled (by omega)
          · split <;> simp
      · simp

theorem value_settled_step {fuel : Nat} (membersSettled : ∀ m < fuel, MembersSettled m)
    (elementsSettled : ∀ m < fuel, ElementsSettled m) : ValueSettled (fuel + 1) := by
  intro read rest stack found enough
  obtain ⟨ws, tail, rfl, -, skipped⟩ := skipWs_sound read rest stack found
  simp only [value, between_stack, skipped]
  rw [List.length_append] at enough
  split
  · simp
  split
  · simp
  next b next =>
  split
  · next brace =>
      subst brace
      obtain ⟨tail, rfl⟩ := (byte?_iff '{' (by decide)).mp next
      rw [List.length_cons] at enough
      obtain ⟨fuel, rfl⟩ := Nat.exists_eq_add_one_of_ne_zero (n := fuel) (by omega)
      obtain ⟨inner, tail, rfl, -, skipped⟩ :=
        skipWs_sound (read ++ ws ++ ['{']) tail stack found
      rw [object, between_advance_one (by decide), skipped]
      rw [List.length_append] at enough
      split
      · simp
      · exact membersSettled fuel (Nat.lt_succ_self fuel) (by omega)
  split
  · next bracket =>
      subst bracket
      obtain ⟨tail, rfl⟩ := (byte?_iff '[' (by decide)).mp next
      rw [List.length_cons] at enough
      obtain ⟨fuel, rfl⟩ := Nat.exists_eq_add_one_of_ne_zero (n := fuel) (by omega)
      obtain ⟨inner, tail, rfl, -, skipped⟩ :=
        skipWs_sound (read ++ ws ++ ['[']) tail stack found
      rw [array, between_advance_one (by decide), skipped]
      rw [List.length_append] at enough
      split
      · simp
      · exact elementsSettled fuel (Nat.lt_succ_self fuel) (by omega)
  split
  · next quote =>
      subst quote
      obtain ⟨tail, rfl⟩ := (byte?_iff '"' (by decide)).mp next
      exact stringValue_settled
  split
  · exact literal_settled (by decide)
  split
  · exact literal_settled (by decide)
  split
  · exact literal_settled (by decide)
  split
  · exact number_settled _
  · simp

theorem settled (fuel : Nat) :
    ValueSettled fuel ∧ MembersSettled fuel ∧ ElementsSettled fuel := by
  induction fuel using Nat.strongRecOn with
  | ind fuel ih =>
      cases fuel with
      | zero =>
          refine ⟨?_, ?_, ?_⟩
          · intro _ _ _ _ enough
            omega
          · intro _ _ _ _ enough
            omega
          · intro _ _ _ _ _ enough
            omega
      | succ fuel =>
          obtain ⟨valueSettled, membersSettled, elementsSettled⟩ :=
            ih fuel (Nat.lt_succ_self fuel)
          refine ⟨value_settled_step ?_ ?_, members_settled_step valueSettled membersSettled,
            elements_settled_step valueSettled elementsSettled⟩
          · exact fun m below => (ih m (Nat.lt_succ_of_lt below)).2.1
          · exact fun m below => (ih m (Nat.lt_succ_of_lt below)).2.2

/-- The scanner answers on every text. -/
theorem run_settled (text : Str) : (run text).Settled := by
  have enough : 3 * text.length + 1 ≤ enoughFuel text := by
    have := length_le_encode text
    unfold enoughFuel
    omega
  rw [run, start_eq]
  refine Scan.settled_bind ((settled _).1 enough) fun s _ => ?_
  dsimp only
  split <;> simp

end Scanner

end Proxemby
