import Mathlib.Data.Finmap
import Proxemby.Util

/-!
# Hosts of the resource endpoint

`Registry` of `src/hosts.rs`: the hosts that the `/_proxy/` endpoint may forward
to, each with the scheme it was last seen with.
-/

namespace Proxemby

structure Registry where
  schemes : Finmap fun _ : Str => Str

namespace Registry

def empty : Registry := ⟨∅⟩

def lookup (registry : Registry) (host : Str) : Option Str :=
  registry.schemes.lookup host

def allow (registry : Registry) (host scheme : Str) : Registry :=
  if host = [] then registry
  else
    let scheme :=
      if scheme = "http".toList ∨ scheme = "https".toList then scheme else "https".toList
    if registry.lookup host = some scheme then registry
    else ⟨registry.schemes.insert host scheme⟩

def new (initial : List Str) : Registry :=
  initial.foldl (fun registry host => registry.allow host "https".toList) empty

/-- A host that requests may be forwarded to. -/
def Allows (registry : Registry) (host : Str) : Prop := ∃ scheme, registry.lookup host = some scheme

@[simp] theorem lookup_empty (host : Str) : empty.lookup host = none := by
  simp [empty, lookup]

/-- `allow` adds one non-empty host and keeps every other. -/
theorem allows_allow (registry : Registry) (host scheme other : Str) :
    (registry.allow host scheme).Allows other ↔
      registry.Allows other ∨ (other = host ∧ host ≠ []) := by
  by_cases empty : host = []
  · simp [allow, empty]
  · simp only [allow, empty, ↓reduceIte]
    generalize (if scheme = "http".toList ∨ scheme = "https".toList then scheme
      else "https".toList) = kept
    split
    · next known =>
        constructor
        · exact .inl
        · rintro (before | ⟨rfl, -⟩)
          · exact before
          · exact ⟨kept, known⟩
    · by_cases same : other = host
      · subst same
        simp [Allows, lookup, empty]
      · simp [Allows, lookup, Finmap.lookup_insert_of_ne _ same, same]

/-- A new registry allows the non-empty hosts of its list. -/
theorem allows_new (initial : List Str) (host : Str) :
    (new initial).Allows host ↔ host ∈ initial ∧ host ≠ [] := by
  have fold : ∀ (initial : List Str) (registry : Registry),
      (initial.foldl (fun registry host => registry.allow host "https".toList)
          registry).Allows host ↔ registry.Allows host ∨ (host ∈ initial ∧ host ≠ []) := by
    intro initial
    induction initial with
    | nil => simp
    | cons first initial ih =>
        intro registry
        rw [List.foldl_cons, ih, allows_allow, List.mem_cons, or_assoc]
        constructor
        · rintro (before | ⟨rfl, some⟩ | ⟨member, some⟩)
          · exact .inl before
          · exact .inr ⟨.inl rfl, some⟩
          · exact .inr ⟨.inr member, some⟩
        · rintro (before | ⟨rfl | member, some⟩)
          · exact .inl before
          · exact .inr (.inl ⟨rfl, some⟩)
          · exact .inr (.inr ⟨member, some⟩)
  rw [new, fold]
  simp [Allows]

end Registry

end Proxemby
