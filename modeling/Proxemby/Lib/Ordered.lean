import Mathlib.Data.Finmap
import Mathlib.Data.Finset.Sort

/-!
# Finite maps as ordered lists

The keys and the entries of a finite map in the order of the keys, and the map that a
list of entries describes.
-/

namespace Ordered

universe u v

variable {κ : Type u} {β : Type v} [LinearOrder κ]

/-- The keys of a map, in order. -/
def keys (map : Finmap fun _ : κ => β) : List κ :=
  map.keys.sort (· ≤ ·)

@[simp] theorem mem_keys {map : Finmap fun _ : κ => β} {key : κ} :
    key ∈ keys map ↔ key ∈ map := by
  rw [keys, Finset.mem_sort, Finmap.mem_keys]

theorem keys_nodup (map : Finmap fun _ : κ => β) : (keys map).Nodup :=
  Finset.sort_nodup _ _

variable [DecidableEq κ]

/-- The entries of a map, in the order of their keys. -/
def entries (map : Finmap fun _ : κ => β) : List (κ × β) :=
  (keys map).filterMap fun key => (map.lookup key).map fun value => (key, value)

theorem lookup_of_mem_entries {map : Finmap fun _ : κ => β} {entry : κ × β}
    (member : entry ∈ entries map) : map.lookup entry.1 = some entry.2 := by
  obtain ⟨key, -, pairs⟩ := List.mem_filterMap.mp member
  obtain ⟨value, found, rfl⟩ := Option.map_eq_some_iff.mp pairs
  exact found

/-- The map of a list of entries: of several with one key the first one stays. -/
def ofEntries (entries : List (κ × β)) : Finmap fun _ : κ => β :=
  entries.foldr (fun entry map => map.insert entry.1 entry.2) ∅

omit [LinearOrder κ] in
/-- Some of the entries of a map describe its part with their keys. -/
theorem lookup_ofEntries (map : Finmap fun _ : κ => β) (keys : List κ) (key : κ) :
    (ofEntries (keys.filterMap fun key =>
      (map.lookup key).map fun value => (key, value))).lookup key =
        if key ∈ keys then map.lookup key else none := by
  induction keys with
  | nil => simp [ofEntries]
  | cons first keys ih =>
      rw [ofEntries] at ih
      cases found : map.lookup first with
      | none =>
          rw [List.filterMap_cons_none (by rw [found]; rfl), ofEntries, ih]
          by_cases same : key = first
          · subst same
            simp [found]
          · simp [same]
      | some value =>
          rw [List.filterMap_cons_some (by rw [found]; rfl), ofEntries, List.foldr_cons]
          by_cases same : key = first
          · subst same
            simp [found]
          · rw [Finmap.lookup_insert_of_ne _ same, ih]
            simp [same]

omit [LinearOrder κ] in
theorem mem_of_lookup_ofEntries {entries : List (κ × β)} {key : κ} {value : β}
    (found : (ofEntries entries).lookup key = some value) : (key, value) ∈ entries := by
  induction entries with
  | nil => simp [ofEntries] at found
  | cons entry entries ih =>
      rw [ofEntries, List.foldr_cons, ← ofEntries] at found
      by_cases same : key = entry.1
      · subst same
        rw [Finmap.lookup_insert, Option.some.injEq] at found
        exact List.mem_cons.mpr (.inl (Prod.ext rfl found.symm))
      · rw [Finmap.lookup_insert_of_ne _ same] at found
        exact List.mem_cons_of_mem _ (ih found)

/-- The entries of a map describe the map. -/
theorem ofEntries_entries (map : Finmap fun _ : κ => β) : ofEntries (entries map) = map := by
  apply Finmap.ext_lookup
  intro key
  rw [entries, lookup_ofEntries]
  split
  · rfl
  · next absent =>
      exact (Finmap.lookup_eq_none.mpr (mem_keys.not.mp absent)).symm

end Ordered
