import Mathlib.Algebra.Order.BigOperators.Group.Finset

/-!
# Reading a sum while it grows

A counter is spread over shards that only grow.  A reader visits the shards one after
another and adds up what it finds, while others go on adding.  What it ends with need
not be the sum at any one moment, but a later reading is never below an earlier one,
nor above the sum.
-/

namespace Sweep

variable {ι α : Type*} [Fintype ι] [DecidableEq ι] [AddCommMonoid α]

/-- The reader has added up the shards other than those it has left. -/
def Partial (shards : ι → α) (acc : α) (left : List ι) : Prop :=
  acc = ∑ i with i ∉ left, shards i

theorem Partial.start {shards : ι → α} {left : List ι} (all : ∀ i, i ∈ left) :
    Partial shards 0 left := by
  rw [Partial, Finset.filter_false_of_mem (fun i _ out => out (all i)), Finset.sum_empty]

/-- The reader goes on to the next shard. -/
theorem Partial.load {shards : ι → α} {acc : α} {i : ι} {left : List ι} (fresh : i ∉ left)
    (reads : Partial shards acc (i :: left)) : Partial shards (acc + shards i) left := by
  have next : (Finset.univ.filter fun j => j ∉ left) =
      insert i (Finset.univ.filter fun j => j ∉ i :: left) := by
    ext j
    by_cases same : j = i
    · simp [same, fresh]
    · simp [same]
  rw [Partial] at reads
  rw [Partial, next, Finset.sum_insert (by simp), reads, add_comm]

theorem Partial.finish {shards : ι → α} {acc : α} (reads : Partial shards acc []) :
    acc = ∑ i, shards i := by
  simpa [Partial] using reads

/-- Shards that the reader has left do not count yet. -/
theorem Partial.congr {shards shards' : ι → α} {acc : α} {left : List ι}
    (same : ∀ i, i ∉ left → shards' i = shards i) (reads : Partial shards acc left) :
    Partial shards' acc left := by
  rw [Partial] at reads ⊢
  rw [reads]
  exact Finset.sum_congr rfl fun i member => (same i (Finset.mem_filter.mp member).2).symm

variable [PartialOrder α] [IsOrderedAddMonoid α]

/-- A sum of values that the shards have had. -/
def Covers (shards : ι → α) (total : α) : Prop := ∃ old ≤ shards, total = ∑ i, old i

omit [DecidableEq ι] in
theorem Covers.le {shards : ι → α} {total : α} (covers : Covers shards total) :
    total ≤ ∑ i, shards i := by
  obtain ⟨old, below, rfl⟩ := covers
  exact Finset.sum_le_sum fun i _ => below i

omit [DecidableEq ι] [IsOrderedAddMonoid α] in
theorem Covers.grow {shards shards' : ι → α} {total : α} (grow : shards ≤ shards')
    (covers : Covers shards total) : Covers shards' total := by
  obtain ⟨old, below, rfl⟩ := covers
  exact ⟨old, below.trans grow, rfl⟩

/-- A reading in progress, after an earlier one that ended with `before`. -/
def Reads (shards : ι → α) (before acc : α) (left : List ι) : Prop :=
  ∃ old seen, old ≤ seen ∧ seen ≤ shards ∧ before = ∑ i, old i ∧ Partial seen acc left

omit [IsOrderedAddMonoid α] in
theorem Covers.start {shards : ι → α} {total : α} {left : List ι} (all : ∀ i, i ∈ left)
    (covers : Covers shards total) : Reads shards total 0 left := by
  obtain ⟨old, below, rfl⟩ := covers
  exact ⟨old, old, le_rfl, below, rfl, .start all⟩

/-- What has been added up is not above the sum. -/
theorem Reads.le [CanonicallyOrderedAdd α] {shards : ι → α} {before acc : α} {left : List ι}
    (reads : Reads shards before acc left) : acc ≤ ∑ i, shards i := by
  obtain ⟨old, seen, -, below, -, sum⟩ := reads
  calc acc = ∑ i with i ∉ left, seen i := sum
    _ ≤ ∑ i, seen i := Finset.sum_le_sum_of_subset (Finset.filter_subset _ _)
    _ ≤ ∑ i, shards i := Finset.sum_le_sum fun i _ => below i

omit [IsOrderedAddMonoid α] in
/-- Others may add to the shards at any time. -/
theorem Reads.grow {shards shards' : ι → α} {before acc : α} {left : List ι}
    (grow : shards ≤ shards') (reads : Reads shards before acc left) :
    Reads shards' before acc left := by
  obtain ⟨old, seen, older, below, rfl, sum⟩ := reads
  exact ⟨old, seen, older, below.trans grow, rfl, sum⟩

omit [IsOrderedAddMonoid α] in
/-- A shard is read as it is now. -/
theorem Reads.load {shards : ι → α} {before acc : α} {i : ι} {left : List ι} (fresh : i ∉ left)
    (reads : Reads shards before acc (i :: left)) :
    Reads shards before (acc + shards i) left := by
  obtain ⟨old, seen, older, below, rfl, sum⟩ := reads
  refine ⟨old, Function.update seen i (shards i), ?_, ?_, rfl, ?_⟩
  · intro j
    by_cases same : j = i
    · subst same
      rw [Function.update_self]
      exact (older j).trans (below j)
    · rw [Function.update_of_ne same]
      exact older j
  · intro j
    by_cases same : j = i
    · subst same
      rw [Function.update_self]
    · rw [Function.update_of_ne same]
      exact below j
  · have read : Partial (Function.update seen i (shards i)) acc (i :: left) := by
      refine sum.congr ?_
      intro j out
      rw [List.mem_cons, not_or] at out
      rw [Function.update_of_ne out.1]
    simpa using read.load fresh

/-- A reading that ends is not below the one before, and becomes the one before. -/
theorem Reads.finish {shards : ι → α} {before acc : α} (reads : Reads shards before acc []) :
    before ≤ acc ∧ Covers shards acc := by
  obtain ⟨old, seen, older, below, rfl, sum⟩ := reads
  rw [sum.finish]
  exact ⟨Finset.sum_le_sum fun i _ => older i, seen, below, rfl⟩

end Sweep
