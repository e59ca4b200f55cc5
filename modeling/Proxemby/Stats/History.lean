import Mathlib.Algebra.BigOperators.Group.Finset.Basic
import Mathlib.Data.Char
import Mathlib.Data.Finmap
import Mathlib.Data.Finset.Max
import Mathlib.Data.List.Lex
import Proxemby.Stats.Counters

/-!
# Traffic history

The per-day totals of `src/stats.rs`: ordered maps from dates to routes to kinds, in
which an absent entry counts as no traffic.
-/

namespace Proxemby

/-- date -> route -> kind -> totals -/
abbrev Days := Finmap fun _ : Str => Finmap fun _ : Str => Finmap fun _ : Str => Totals

/-- How many days of history the stats file keeps. -/
def keepDays : Nat := 400

namespace Days

/-- The totals of a date, route and kind. -/
def stored (days : Days) (date route kind : Str) : Totals :=
  (((days.lookup date).bind (·.lookup route)).bind (·.lookup kind)).getD .zero

/-- Add to an entry, which is made when it is missing. -/
def addTo (days : Days) (date route kind : Str) (delta : Totals) : Days :=
  let routes := (days.lookup date).getD ∅
  let kinds := (routes.lookup route).getD ∅
  let totals := (kinds.lookup kind).getD .zero
  days.insert date (routes.insert route (kinds.insert kind (totals.add delta)))

/-- Remove the smallest date. -/
def popFirst (days : Days) : Days :=
  if some : days.keys.Nonempty then days.erase (days.keys.min' some) else days

/-- Remove the smallest dates until at most `keepDays` are left. -/
def evict (days : Days) : Days :=
  if keepDays < days.keys.card then evict days.popFirst else days
termination_by days.keys.card
decreasing_by
  have some : days.keys.Nonempty := Finset.card_pos.mp (by omega)
  rw [popFirst, dif_pos some, Finmap.keys_erase]
  exact Finset.card_erase_lt_of_mem (Finset.min'_mem _ some)

/-- The stored amount of all dates. -/
def sum (days : Days) (route kind : Str) (field : Field) : Nat :=
  ∑ date ∈ days.keys, (days.stored date route kind).get field

/-- Set an entry. -/
def put (days : Days) (date route kind : Str) (totals : Totals) : Days :=
  let routes := (days.lookup date).getD ∅
  let kinds := (routes.lookup route).getD ∅
  days.insert date (routes.insert route (kinds.insert kind totals))

theorem stored_put (days : Days) (date route kind : Str) (totals : Totals)
    (date' route' kind' : Str) :
    (days.put date route kind totals).stored date' route' kind' =
      if date' = date ∧ route' = route ∧ kind' = kind then totals
      else days.stored date' route' kind' := by
  by_cases sameDate : date' = date
  · subst sameDate
    by_cases sameRoute : route' = route
    · subst sameRoute
      by_cases sameKind : kind' = kind
      · subst sameKind
        simp [stored, put]
      · cases day : days.lookup date' with
        | none => simp [stored, put, day, Finmap.lookup_insert_of_ne _ sameKind, sameKind]
        | some routes =>
            cases entry : routes.lookup route' with
            | none =>
                simp [stored, put, day, entry, Finmap.lookup_insert_of_ne _ sameKind, sameKind]
            | some kinds =>
                simp [stored, put, day, entry, Finmap.lookup_insert_of_ne _ sameKind, sameKind]
    · cases day : days.lookup date' with
      | none => simp [stored, put, day, Finmap.lookup_insert_of_ne _ sameRoute, sameRoute]
      | some routes =>
          simp [stored, put, day, Finmap.lookup_insert_of_ne _ sameRoute, sameRoute]
  · simp [stored, put, Finmap.lookup_insert_of_ne _ sameDate, sameDate]

theorem keys_put (days : Days) (date route kind : Str) (totals : Totals) :
    (days.put date route kind totals).keys = insert date days.keys := by
  ext other
  simp [put, Finmap.mem_keys, Finmap.mem_insert]

theorem addTo_eq_put (days : Days) (date route kind : Str) (delta : Totals) :
    days.addTo date route kind delta =
      days.put date route kind ((days.stored date route kind).add delta) := by
  cases day : days.lookup date with
  | none => simp [addTo, put, stored, day]
  | some routes =>
      cases entry : routes.lookup route with
      | none => simp [addTo, put, stored, day, entry]
      | some kinds => simp [addTo, put, stored, day, entry]

theorem stored_addTo (days : Days) (date route kind : Str) (delta : Totals)
    (date' route' kind' : Str) :
    (days.addTo date route kind delta).stored date' route' kind' =
      if date' = date ∧ route' = route ∧ kind' = kind then
        (days.stored date' route' kind').add delta
      else days.stored date' route' kind' := by
  rw [addTo_eq_put, stored_put]
  by_cases same : date' = date ∧ route' = route ∧ kind' = kind
  · rw [if_pos same, if_pos same, same.1, same.2.1, same.2.2]
  · rw [if_neg same, if_neg same]

theorem keys_addTo (days : Days) (date route kind : Str) (delta : Totals) :
    (days.addTo date route kind delta).keys = insert date days.keys := by
  rw [addTo_eq_put, keys_put]

/-- An absent date has no traffic. -/
theorem stored_of_notMem {days : Days} {date : Str} (absent : date ∉ days.keys)
    (route kind : Str) : days.stored date route kind = .zero := by
  rw [Finmap.mem_keys, ← Finmap.lookup_eq_none] at absent
  simp [stored, absent]

theorem sum_addTo (days : Days) (date route kind : Str) (delta : Totals) (route' kind' : Str)
    (field : Field) :
    (days.addTo date route kind delta).sum route' kind' field =
      days.sum route' kind' field +
        if route' = route ∧ kind' = kind then delta.get field else 0 := by
  have absent : date ∉ days.keys → (days.stored date route' kind').get field = 0 := by
    intro absent
    rw [stored_of_notMem absent, Totals.get_zero]
  have known : days.sum route' kind' field =
      ∑ day ∈ insert date days.keys, (days.stored day route' kind').get field := by
    rw [Finset.sum_insert_of_eq_zero_if_notMem absent, sum]
  have one : (if route' = route ∧ kind' = kind then delta.get field else 0) =
      ∑ day ∈ insert date days.keys,
        if day = date then (if route' = route ∧ kind' = kind then delta.get field else 0)
        else 0 := by
    rw [Finset.sum_ite_eq', if_pos (Finset.mem_insert_self date _)]
  rw [known, one, ← Finset.sum_add_distrib, sum, keys_addTo]
  refine Finset.sum_congr rfl ?_
  intro day member
  rw [stored_addTo]
  by_cases sameDate : day = date
  · by_cases same : route' = route ∧ kind' = kind
    · simp [sameDate, same]
    · simp [sameDate, same]
  · simp [sameDate]

/-- All entries fit into 64 bits. -/
def Fits (days : Days) : Prop := ∀ date route kind, (days.stored date route kind).Fits

theorem fits_empty : Fits ∅ := by
  intro date route kind field
  rw [stored_of_notMem (by simp)]
  exact Totals.fits_zero field

theorem Fits.put {days : Days} (fits : days.Fits) (date route kind : Str) {totals : Totals}
    (small : totals.Fits) : (days.put date route kind totals).Fits := by
  intro date' route' kind'
  rw [stored_put]
  split
  · exact small
  · exact fits date' route' kind'

/-! ## Eviction -/

/-- What `evict` does: it keeps the largest dates, `keepDays` of them if there are as many,
with all their entries. -/
structure Evicted (days kept : Days) : Prop where
  subset : kept.keys ⊆ days.keys
  lookup : ∀ date ∈ kept.keys, kept.lookup date = days.lookup date
  smaller : ∀ gone ∈ days.keys \ kept.keys, ∀ date ∈ kept.keys, gone < date
  card : kept.keys.card = min days.keys.card keepDays

theorem keys_popFirst {days : Days} (some : days.keys.Nonempty) :
    days.popFirst.keys = days.keys.erase (days.keys.min' some) := by
  rw [popFirst, dif_pos some, Finmap.keys_erase]

theorem evict_evicted (days : Days) : Evicted days days.evict := by
  induction days using evict.induct with
  | case1 days more ih =>
      have some : days.keys.Nonempty := Finset.card_pos.mp (by omega)
      have keys := keys_popFirst some
      rw [evict, if_pos more]
      refine ⟨?_, ?_, ?_, ?_⟩
      · intro date member
        have inner := ih.subset member
        rw [keys] at inner
        exact Finset.mem_of_mem_erase inner
      · intro date member
        have inner := ih.subset member
        rw [keys] at inner
        rw [ih.lookup date member, popFirst, dif_pos some,
          Finmap.lookup_erase_ne (Finset.ne_of_mem_erase inner)]
      · intro gone out date member
        rw [Finset.mem_sdiff] at out
        by_cases first : gone = days.keys.min' some
        · have inner := ih.subset member
          rw [keys] at inner
          rw [first]
          exact Finset.min'_lt_of_mem_erase_min' _ some inner
        · refine ih.smaller gone ?_ date member
          rw [Finset.mem_sdiff, keys]
          exact ⟨Finset.mem_erase_of_ne_of_mem first out.1, out.2⟩
      · rw [ih.card, keys, Finset.card_erase_of_mem (Finset.min'_mem _ some)]
        omega
  | case2 days fits =>
      rw [evict, if_neg fits]
      refine ⟨Finset.Subset.refl _, fun _ _ => rfl, ?_, by omega⟩
      intro gone out
      simp at out

theorem evict_self {days : Days} (fits : days.keys.card ≤ keepDays) : days.evict = days := by
  rw [evict, if_neg (by omega)]

/-- What an eviction takes away. -/
def evictedAmount (days : Days) (route kind : Str) (field : Field) : Nat :=
  ∑ date ∈ days.keys \ days.evict.keys, (days.stored date route kind).get field

theorem sum_evict (days : Days) (route kind : Str) (field : Field) :
    days.evict.sum route kind field + days.evictedAmount route kind field =
      days.sum route kind field := by
  have evicted := days.evict_evicted
  have kept : days.evict.sum route kind field =
      ∑ date ∈ days.evict.keys, (days.stored date route kind).get field := by
    refine Finset.sum_congr rfl ?_
    intro date member
    simp only [stored, evicted.lookup date member]
  rw [kept, evictedAmount, add_comm, Finset.sum_sdiff evicted.subset, sum]

end Days

end Proxemby
