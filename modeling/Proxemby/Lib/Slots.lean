import Mathlib.Algebra.BigOperators.Group.Finset.Basic
import Mathlib.Algebra.BigOperators.Group.List.Basic
import Mathlib.Algebra.Order.Group.Nat
import Mathlib.Tactic.Abel

/-!
# Numbered things that come and go

A table that gives each new thing the next number, and a list of things that parties have
left to do.  A sum over all that is there changes by what comes and goes.
-/

/-- A table of things under numbers that are not used twice. -/
structure Slots (α : Type*) where
  get : Nat → Option α
  next : Nat
  fresh : ∀ id, next ≤ id → get id = none

namespace Slots

variable {α : Type*}

def empty : Slots α := ⟨fun _ => none, 0, fun _ _ => rfl⟩

/-- Put a thing under the next number. -/
def push (slots : Slots α) (value : α) : Slots α where
  get := Function.update slots.get slots.next (some value)
  next := slots.next + 1
  fresh id above := by
    rw [Function.update_of_ne (Nat.ne_of_gt above)]
    exact slots.fresh id (Nat.le_of_succ_le above)

/-- Change what is under a number that is in use. -/
def modify (slots : Slots α) (id : Nat) (change : α → Option α) : Slots α where
  get := Function.update slots.get id ((slots.get id).bind change)
  next := slots.next
  fresh other above := by
    by_cases same : other = id
    · subst same
      rw [Function.update_self, slots.fresh other above, Option.bind_none]
    · rw [Function.update_of_ne same]
      exact slots.fresh other above

/-- Free a number. -/
def remove (slots : Slots α) (id : Nat) : Slots α := slots.modify id fun _ => none

@[simp] theorem get_push (slots : Slots α) (value : α) (id : Nat) :
    (slots.push value).get id = if id = slots.next then some value else slots.get id :=
  Function.update_apply _ _ _ _

@[simp] theorem get_modify (slots : Slots α) (id other : Nat) (change : α → Option α) :
    (slots.modify id change).get other =
      if other = id then (slots.get id).bind change else slots.get other :=
  Function.update_apply _ _ _ _

theorem get_remove (slots : Slots α) (id : Nat) :
    (slots.remove id).get = Function.update slots.get id none :=
  congrArg (Function.update slots.get id) (Option.bind_fun_none _)

@[simp] theorem next_push (slots : Slots α) (value : α) :
    (slots.push value).next = slots.next + 1 := rfl

@[simp] theorem next_modify (slots : Slots α) (id : Nat) (change : α → Option α) :
    (slots.modify id change).next = slots.next := rfl

/-- A number that is not in use need not be freed. -/
theorem remove_of_none {slots : Slots α} {id : Nat} (absent : slots.get id = none) :
    slots.remove id = slots := by
  obtain ⟨get, next, fresh⟩ := slots
  have same : Function.update get id ((get id).bind fun _ => none) = get := by
    rw [Option.bind_fun_none, ← absent, Function.update_eq_self]
  simp only [remove, modify, same]

variable {M : Type*} [AddCommMonoid M]

/-- The weight of what is under a number. -/
def weigh (weight : α → M) (value : Option α) : M := (value.map weight).getD 0

@[simp] theorem weigh_none (weight : α → M) : weigh weight none = 0 := rfl

@[simp] theorem weigh_some (weight : α → M) (value : α) :
    weigh weight (some value) = weight value := rfl

/-- The weight of all that is in a table. -/
def total (weight : α → M) (slots : Slots α) : M :=
  ∑ id ∈ Finset.range slots.next, weigh weight (slots.get id)

@[simp] theorem total_empty (weight : α → M) : (empty : Slots α).total weight = 0 := rfl

@[simp] theorem total_push (weight : α → M) (slots : Slots α) (value : α) :
    (slots.push value).total weight = slots.total weight + weight value := by
  rw [total, next_push, Finset.sum_range_succ, get_push, if_pos rfl]
  congr 1
  refine Finset.sum_congr rfl fun id member => ?_
  rw [get_push, if_neg (Nat.ne_of_lt (Finset.mem_range.mp member))]

/-- What is under a number goes out of the sum, and what comes instead goes in. -/
theorem total_modify (weight : α → M) (slots : Slots α) (id : Nat) (change : α → Option α) :
    (slots.modify id change).total weight + weigh weight (slots.get id) =
      slots.total weight + weigh weight ((slots.get id).bind change) := by
  by_cases used : id < slots.next
  · have member : id ∈ Finset.range slots.next := Finset.mem_range.mpr used
    have others : ∀ other ∈ (Finset.range slots.next).erase id,
        weigh weight ((slots.modify id change).get other) = weigh weight (slots.get other) := by
      intro other out
      rw [get_modify, if_neg (Finset.ne_of_mem_erase out)]
    rw [total, total, next_modify, ← Finset.add_sum_erase _ _ member,
      ← Finset.add_sum_erase _ (fun id => weigh weight (slots.get id)) member,
      Finset.sum_congr rfl others, get_modify, if_pos rfl]
    abel
  · have none := slots.fresh id (Nat.le_of_not_lt used)
    rw [none, Option.bind_none]
    congr 1
    refine Finset.sum_congr rfl fun other member => ?_
    have differ : other ≠ id := fun same => used (same ▸ Finset.mem_range.mp member)
    rw [get_modify, if_neg differ]

theorem total_remove (weight : α → M) (slots : Slots α) (id : Nat) :
    (slots.remove id).total weight + weigh weight (slots.get id) = slots.total weight := by
  have change := slots.total_modify weight id fun _ => none
  rwa [Option.bind_fun_none, weigh_none, add_zero] at change

/-- Nothing in a table without weight has weight. -/
theorem weight_eq_zero {weight : α → Nat} {slots : Slots α} (none : slots.total weight = 0)
    {id : Nat} {value : α} (found : slots.get id = some value) : weight value = 0 := by
  have used : id < slots.next := by
    by_contra above
    rw [slots.fresh id (Nat.le_of_not_lt above)] at found
    cases found
  have zero := (Finset.sum_eq_zero_iff.mp none) id (Finset.mem_range.mpr used)
  rwa [found, weigh_some] at zero

/-! ### Tables of one shape -/

/-- Two tables have the same numbers in use, and what they have under each is related. -/
structure Paired {β : Type*} (related : α → β → Prop) (slots : Slots α) (others : Slots β) :
    Prop where
  next : slots.next = others.next
  get : ∀ id, slots.get id = none ∧ others.get id = none ∨
    ∃ value other, slots.get id = some value ∧ others.get id = some other ∧ related value other

namespace Paired

variable {β : Type*} {related : α → β → Prop} {slots : Slots α} {others : Slots β}

theorem empty : Paired related (.empty : Slots α) (.empty : Slots β) :=
  ⟨rfl, fun _ => .inl ⟨rfl, rfl⟩⟩

theorem push (paired : Paired related slots others) {value : α} {other : β}
    (both : related value other) : Paired related (slots.push value) (others.push other) where
  next := congrArg (· + 1) paired.next
  get id := by
    rw [get_push, get_push, ← paired.next]
    split
    · exact .inr ⟨value, other, rfl, rfl, both⟩
    · exact paired.get id

theorem modify (paired : Paired related slots others) {id : Nat} {change : α → Option α}
    {change' : β → Option β}
    (both : ∀ value other, slots.get id = some value → others.get id = some other →
      related value other → change value = none ∧ change' other = none ∨
        ∃ value' other', change value = some value' ∧ change' other = some other' ∧
          related value' other') :
    Paired related (slots.modify id change) (others.modify id change') where
  next := paired.next
  get place := by
    rw [get_modify, get_modify]
    split
    · rcases paired.get id with ⟨none, none'⟩ | ⟨value, other, found, found', holds⟩
      · rw [none, none']
        exact .inl ⟨rfl, rfl⟩
      · rw [found, found']
        exact both value other found found' holds
    · exact paired.get place

theorem remove (paired : Paired related slots others) (id : Nat) :
    Paired related (slots.remove id) (others.remove id) :=
  paired.modify fun _ _ _ _ _ => .inl ⟨rfl, rfl⟩

/-- What one table has under a number has a counterpart in the other. -/
theorem other_of_get (paired : Paired related slots others) {id : Nat} {value : α}
    (found : slots.get id = some value) :
    ∃ other, others.get id = some other ∧ related value other := by
  rcases paired.get id with ⟨none, -⟩ | ⟨same, other, found', there, holds⟩
  · rw [found] at none
    cases none
  · obtain rfl := Option.some.inj (found.symm.trans found')
    exact ⟨other, there, holds⟩

theorem none_of_get (paired : Paired related slots others) {id : Nat}
    (absent : slots.get id = none) : others.get id = none := by
  rcases paired.get id with ⟨-, absent'⟩ | ⟨value, other, found, -, -⟩
  · exact absent'
  · rw [absent] at found
    cases found

end Paired

end Slots

/-! ## What parties have left to do -/

namespace Agenda

variable {ρ α : Type*}

/-- The first thing that a party has left to do, and what remains. -/
def take [DecidableEq ρ] (party : ρ) : List (ρ × α) → Option (α × List (ρ × α))
  | [] => none
  | (owner, task) :: rest =>
      if owner = party then some (task, rest)
      else (take party rest).map fun taken => (taken.1, (owner, task) :: taken.2)

variable {M : Type*} [AddCommMonoid M]

/-- The weight of all that is left to do. -/
def total (weight : α → M) (agenda : List (ρ × α)) : M :=
  (agenda.map fun entry => weight entry.2).sum

@[simp] theorem total_nil (weight : α → M) : total weight ([] : List (ρ × α)) = 0 := rfl

@[simp] theorem total_append (weight : α → M) (front back : List (ρ × α)) :
    total weight (front ++ back) = total weight front + total weight back := by
  rw [total, List.map_append, List.sum_append, total, total]

theorem total_assign (weight : α → M) (party : ρ) (tasks : List α) :
    total weight (tasks.map fun task => (party, task)) = (tasks.map weight).sum := by
  rw [total, List.map_map]
  rfl

theorem total_take [DecidableEq ρ] (weight : α → M) {party : ρ} {agenda rest : List (ρ × α)}
    {task : α} (taken : take party agenda = some (task, rest)) :
    weight task + total weight rest = total weight agenda := by
  induction agenda generalizing rest with
  | nil => cases taken
  | cons entry agenda ih =>
      obtain ⟨owner, first⟩ := entry
      rw [take] at taken
      split at taken
      · obtain ⟨rfl, rfl⟩ := Prod.mk.inj (Option.some.inj taken)
        rfl
      · obtain ⟨⟨found, left⟩, later, same⟩ := Option.map_eq_some_iff.mp taken
        obtain ⟨rfl, rfl⟩ := Prod.mk.inj same
        have rest := ih later
        simp only [total, List.map_cons, List.sum_cons] at rest ⊢
        rw [← rest, add_left_comm]

end Agenda
