import Mathlib.Data.List.Sort

/-!
# Stable sorting by a key

A list that is sorted by a key is determined by its elements of each key, in their order.
A stable sort keeps these.
-/

namespace StableSort

universe u v

variable {α : Type u} {κ : Type v} [DecidableEq κ] (key : α → κ) (le : κ → κ → Prop)

/-- The elements of one key, in their order. -/
def group (k : κ) (xs : List α) : List α := xs.filter fun x => key x = k

variable {key le}

theorem group_cons_self (x : α) (xs : List α) :
    group key (key x) (x :: xs) = x :: group key (key x) xs :=
  List.filter_cons_of_pos (by simp)

theorem group_cons_of_ne {k : κ} {x : α} (other : key x ≠ k) (xs : List α) :
    group key k (x :: xs) = group key k xs :=
  List.filter_cons_of_neg (by simpa using other)

theorem mem_of_group_eq_cons {k : κ} {x : α} {xs rest : List α}
    (group_eq : group key k xs = x :: rest) : x ∈ xs ∧ key x = k := by
  have member : x ∈ group key k xs := group_eq ▸ List.mem_cons_self
  simpa [group] using member

section Order

omit [DecidableEq κ] in
/-- The first element of a sorted list has a least key. -/
theorem le_of_mem [Std.Refl le] {x y : α} {xs : List α}
    (sorted : (x :: xs).Pairwise fun a b => le (key a) (key b)) (member : y ∈ x :: xs) :
    le (key x) (key y) := by
  rcases List.mem_cons.mp member with rfl | later
  · exact Std.Refl.refl _
  · exact (List.pairwise_cons.mp sorted).1 y later

/-- Sorted lists with the same elements of each key, in the same order, are the same. -/
theorem eq_of_group_eq [Std.Refl le] [Std.Antisymm le] {xs ys : List α}
    (sorted : xs.Pairwise fun a b => le (key a) (key b))
    (sorted' : ys.Pairwise fun a b => le (key a) (key b))
    (same : ∀ k, group key k xs = group key k ys) : xs = ys := by
  induction xs generalizing ys with
  | nil =>
      cases ys with
      | nil => rfl
      | cons y ys =>
          have first := same (key y)
          rw [group_cons_self] at first
          cases first
  | cons x xs ih =>
      have first := same (key x)
      rw [group_cons_self] at first
      have inside := mem_of_group_eq_cons first.symm
      cases ys with
      | nil => cases inside.1
      | cons y ys =>
          have first' := same (key y)
          rw [group_cons_self] at first'
          have keys : key x = key y :=
            Std.Antisymm.antisymm _ _ (le_of_mem sorted (mem_of_group_eq_cons first').1)
              (le_of_mem sorted' inside.1)
          rw [keys, group_cons_self] at first
          obtain rfl := (List.cons.inj first).1
          congr 1
          refine ih sorted.of_cons sorted'.of_cons fun k => ?_
          by_cases own : key x = k
          · subst own
            exact (List.cons.inj first).2
          · rw [← group_cons_of_ne own xs, same k, group_cons_of_ne own ys]

end Order

section Insertion

variable [DecidableRel le] [Std.Refl le]

/-- Sorting by insertion keeps the elements of each key in their order. -/
theorem group_insertionSort (k : κ) (xs : List α) :
    group key k (xs.insertionSort fun a b => le (key a) (key b)) = group key k xs := by
  have tied : (group key k xs).Pairwise fun a b => le (key a) (key b) := by
    refine List.pairwise_of_forall_mem_list fun a left b right => ?_
    have left' := (List.mem_filter.mp left).2
    have right' := (List.mem_filter.mp right).2
    rw [of_decide_eq_true left', of_decide_eq_true right']
    exact Std.Refl.refl _
  have kept := (List.sublist_insertionSort tied List.filter_sublist).filter fun x => key x = k
  rw [group, List.filter_filter] at kept
  simp only [Bool.and_self] at kept
  have size := ((List.perm_insertionSort (fun a b => le (key a) (key b)) xs).filter
    fun x => key x = k).length_eq
  exact (kept.eq_of_length size.symm).symm

end Insertion

end StableSort
