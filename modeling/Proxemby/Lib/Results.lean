import Mathlib.Data.List.Forall2

/-!
# Results of steps that may fail

When a chain of steps succeeds, and with what.
-/

namespace Results

universe u

variable {ε : Type*} {α β : Type u}

theorem bind_eq_ok {first : Except ε α} {next : α → Except ε β} {result : β} :
    first >>= next = .ok result ↔ ∃ value, first = .ok value ∧ next value = .ok result := by
  cases first with
  | error e => simp [bind, Except.bind]
  | ok value => simp [bind, Except.bind]

theorem map_eq_ok {first : Except ε α} {image : α → β} {result : β} :
    first.map image = .ok result ↔ ∃ value, first = .ok value ∧ image value = result := by
  cases first with
  | error e => simp [Except.map]
  | ok value => simp [Except.map]

/-- A check in front of the other steps. -/
theorem unless_eq_ok {bad : Prop} [Decidable bad] {e : ε} {next : PUnit → Except ε α}
    {result : α} :
    (if bad then (throw e : Except ε PUnit) >>= next else next ⟨⟩) = .ok result ↔
      ¬bad ∧ next ⟨⟩ = .ok result := by
  by_cases holds : bad
  · simp [holds, throw, throwThe, MonadExceptOf.throw, bind, Except.bind]
  · simp [holds]

/-- A step on a value that may be missing. -/
theorem mapM_option_eq_ok {step : α → Except ε β} {first : Option α} {result : Option β} :
    first.mapM step = .ok result ↔
      (∀ value, first = some value → ∃ image, step value = .ok image) ∧
        result = first.bind fun value => (step value).toOption := by
  cases first with
  | none => simp [pure, Except.pure, eq_comm]
  | some value =>
      rw [Option.mapM_some]
      cases taken : step value <;> simp [Functor.map, Except.map, Except.toOption, taken, eq_comm]

/-- A step over a list succeeds where it does at each element. -/
theorem mapM_eq_ok {step : α → Except ε β} {xs : List α} {ys : List β} :
    xs.mapM step = .ok ys ↔ List.Forall₂ (fun x y => step x = .ok y) xs ys := by
  induction xs generalizing ys with
  | nil => cases ys <;> simp [pure, Except.pure]
  | cons x xs ih =>
      rw [List.mapM_cons, bind_eq_ok, List.forall₂_cons_left_iff]
      constructor
      · rintro ⟨y, taken, rest⟩
        obtain ⟨ys', later, same⟩ := bind_eq_ok.mp rest
        exact ⟨y, ys', taken, ih.mp later, by simpa [pure, Except.pure] using same.symm⟩
      · rintro ⟨y, ys', taken, later, rfl⟩
        exact ⟨y, taken, bind_eq_ok.mpr ⟨ys', ih.mpr later, rfl⟩⟩

/-- Results of the parts of a list, one after another. -/
theorem forall₂_flatten {R : α → β → Prop} {xss : List (List α)} {ys : List β} :
    List.Forall₂ R xss.flatten ys ↔
      ∃ yss, List.Forall₂ (List.Forall₂ R) xss yss ∧ ys = yss.flatten := by
  constructor
  · intro related
    induction xss generalizing ys with
    | nil => exact ⟨[], .nil, by simpa using related⟩
    | cons xs xss ih =>
        rw [List.flatten_cons] at related
        have front := (List.forall₂_take_append _ xs xss.flatten related.flip).flip
        have back := (List.forall₂_drop_append _ xs xss.flatten related.flip).flip
        obtain ⟨yss, later, rest⟩ := ih back
        refine ⟨_ :: yss, .cons front later, ?_⟩
        rw [List.flatten_cons, ← rest, List.take_append_drop]
  · rintro ⟨yss, related, rfl⟩
    exact List.rel_flatten related

end Results
