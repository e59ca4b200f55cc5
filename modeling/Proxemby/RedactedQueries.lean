import Proxemby.Lib.StableSort
import Proxemby.Redaction

/-!
# What the redaction of a query keeps

`sanitize_raw_query` of a well-formed query, read back by `parse_query`: the pairs of the
query sorted by key, with one pair for each sensitive key.
-/

namespace Proxemby

open Text Utf8 StableSort

/-- A key whose values the log does not show. -/
def IsSensitive (key : Str) : Prop := toAsciiLowercase key ∈ sensitiveQueryKeys

instance (key : Str) : Decidable (IsSensitive key) :=
  inferInstanceAs (Decidable (toAsciiLowercase key ∈ sensitiveQueryKeys))

/-- The pairs of one key. -/
abbrev pairsOf (key : Str) (pairs : List (Str × Str)) : List (Str × Str) :=
  group Prod.fst key pairs

/-- The pairs sorted by key, with those of each key in their order, in which one redacted
pair stands for all of a sensitive key. -/
structure IsRedaction (pairs out : List (Str × Str)) : Prop where
  sorted : out.Pairwise fun left right => strLe left.1 right.1
  kept : ∀ key, ¬IsSensitive key → pairsOf key out = pairsOf key pairs
  redacted : ∀ key, IsSensitive key →
    pairsOf key out = if key ∈ pairs.map Prod.fst then [(key, redacted)] else []

/-- Lists of pairs that differ in the values of sensitive keys at most. -/
def SameButSensitive (pairs pairs' : List (Str × Str)) : Prop :=
  List.Forall₂ (fun pair pair' => pair.1 = pair'.1 ∧ (¬IsSensitive pair.1 → pair.2 = pair'.2))
    pairs pairs'

/-! ## The order of keys -/

instance : Std.Refl fun left right => strLe left right = true :=
  ⟨fun key => decide_eq_true (List.le_refl (encode key))⟩

instance : Std.Antisymm fun left right => strLe left right = true :=
  ⟨fun _ _ le ge => encode_injective
    (List.le_antisymm (of_decide_eq_true le) (of_decide_eq_true ge))⟩

instance : Std.Total fun left right : Str × Str => strLe left.1 right.1 = true :=
  ⟨fun left right => (List.le_total (encode left.1) (encode right.1)).imp
    decide_eq_true decide_eq_true⟩

instance : IsTrans (Str × Str) fun left right => strLe left.1 right.1 = true :=
  ⟨fun _ _ _ first second =>
    decide_eq_true (List.le_trans (of_decide_eq_true first) (of_decide_eq_true second))⟩

theorem sortPairs_sorted (pairs : List (Str × Str)) :
    (sortPairs pairs).Pairwise fun left right => strLe left.1 right.1 :=
  List.pairwise_insertionSort _ pairs

theorem pairsOf_sortPairs (key : Str) (pairs : List (Str × Str)) :
    pairsOf key (sortPairs pairs) = pairsOf key pairs :=
  @group_insertionSort _ _ _ Prod.fst (fun left right => strLe left right = true) _ _ key pairs

theorem mem_keys_iff {key : Str} {pairs : List (Str × Str)} :
    key ∈ pairs.map Prod.fst ↔ pairsOf key pairs ≠ [] := by
  rw [ne_eq, pairsOf, group, List.filter_eq_nil_iff]
  simp

/-- A redaction is determined by the pairs. -/
theorem IsRedaction.unique {pairs out out' : List (Str × Str)} (redaction : IsRedaction pairs out)
    (redaction' : IsRedaction pairs out') : out = out' := by
  refine @eq_of_group_eq _ _ _ Prod.fst (fun left right => strLe left right = true) _ _ _ _
    redaction.sorted redaction'.sorted fun key => ?_
  by_cases sensitive : IsSensitive key
  · exact (redaction.redacted key sensitive).trans (redaction'.redacted key sensitive).symm
  · exact (redaction.kept key sensitive).trans (redaction'.kept key sensitive).symm

/-! ## Redacting -/

theorem redactPairs_cons (seen : List Str) (key value : Str) (pairs : List (Str × Str)) :
    redactPairs seen ((key, value) :: pairs) =
      if IsSensitive key then
        if key ∈ seen then redactPairs seen pairs
        else (key, redacted) :: redactPairs (seen ++ [key]) pairs
      else (key, value) :: redactPairs seen pairs := by
  by_cases sensitive : toAsciiLowercase key ∈ sensitiveQueryKeys <;>
    simp [redactPairs, IsSensitive, sensitive]

/-- The pairs of a key after the redaction, with the sensitive keys that were seen before. -/
theorem pairsOf_redactPairs (key : Str) (seen : List Str) (pairs : List (Str × Str)) :
    pairsOf key (redactPairs seen pairs) =
      if IsSensitive key then
        if key ∉ seen ∧ key ∈ pairs.map Prod.fst then [(key, redacted)] else []
      else pairsOf key pairs := by
  induction pairs generalizing seen with
  | nil => simp [redactPairs, group]
  | cons pair pairs ih =>
      obtain ⟨name, value⟩ := pair
      rw [redactPairs_cons]
      by_cases own : name = key
      · subst own
        by_cases sensitive : IsSensitive name
        · rw [if_pos sensitive, if_pos sensitive]
          split
          · next before => simp_all
          · next fresh => simp_all [pairsOf, group]
        · have here (rest : List (Str × Str)) :
              pairsOf name ((name, value) :: rest) = (name, value) :: pairsOf name rest :=
            group_cons_self (name, value) rest
          rw [if_neg sensitive, if_neg sensitive, here, here, ih, if_neg sensitive]
      · have other (pair : Str × Str) (same : pair.1 = name) (rest : List (Str × Str)) :
            pairsOf key (pair :: rest) = pairsOf key rest :=
          group_cons_of_ne (by rwa [same]) rest
        have elsewhere : key ∈ ((name, value) :: pairs).map Prod.fst ↔
            key ∈ pairs.map Prod.fst := by simp [Ne.symm own]
        simp only [elsewhere, other (name, value) rfl]
        split
        · split
          · exact ih seen
          · have unseen : key ∈ seen ++ [name] ↔ key ∈ seen := by simp [Ne.symm own]
            rw [other _ rfl, ih]
            simp only [unseen]
        · rw [other _ rfl, ih]

theorem isRedaction_sort (pairs : List (Str × Str)) :
    IsRedaction pairs (sortPairs (redactPairs [] pairs)) := by
  refine ⟨sortPairs_sorted _, fun key plain => ?_, fun key sensitive => ?_⟩
  · rw [pairsOf_sortPairs, pairsOf_redactPairs, if_neg plain]
  · rw [pairsOf_sortPairs, pairsOf_redactPairs, if_pos sensitive]
    simp only [List.not_mem_nil, not_false_eq_true, true_and]

/-- A redaction is its own redaction. -/
theorem IsRedaction.self {pairs out : List (Str × Str)} (redaction : IsRedaction pairs out) :
    IsRedaction out out := by
  refine ⟨redaction.sorted, fun _ _ => rfl, fun key sensitive => ?_⟩
  have here := redaction.redacted key sensitive
  by_cases present : key ∈ pairs.map Prod.fst
  · rw [if_pos present] at here
    rw [here, if_pos (mem_keys_iff.mpr (by rw [here]; exact List.cons_ne_nil _ _))]
  · rw [if_neg present] at here
    rw [here, if_neg (mt mem_keys_iff.mp (not_not_intro here))]

/-- The redaction does not depend on the values of sensitive keys. -/
theorem redactPairs_congr {pairs pairs' : List (Str × Str)}
    (same : SameButSensitive pairs pairs') (seen : List Str) :
    redactPairs seen pairs = redactPairs seen pairs' := by
  induction same generalizing seen with
  | nil => rfl
  | @cons pair pair' pairs pairs' here _ ih =>
      obtain ⟨name, value⟩ := pair
      obtain ⟨name', value'⟩ := pair'
      obtain ⟨rfl, values⟩ := here
      rw [redactPairs_cons, redactPairs_cons]
      split
      · rw [ih, ih]
      · next plain =>
          obtain rfl : value = value' := values plain
          rw [ih]

/-! ## Writing -/

theorem writePairs_append {out : Str} (notNil : out ≠ []) (pairs : List (Str × Str)) :
    writePairs out pairs = out ++ (pairs.map pairText).flatMap ('&' :: ·) := by
  induction pairs generalizing out with
  | nil => simp [writePairs]
  | cons pair pairs ih =>
      rw [writePairs, if_neg notNil, ih (by simp)]
      simp [pairText]

/-- The pairs are written with `&` between them. -/
theorem writePairs_eq (pairs : List (Str × Str)) :
    writePairs [] pairs = ['&'].intercalate (pairs.map pairText) := by
  cases pairs with
  | nil => rfl
  | cons pair pairs =>
      rw [List.map_cons, intercalate_cons, writePairs, if_pos rfl, List.nil_append,
        writePairs_append (by simp)]
      simp [pairText]

/-- What is written is parsed to the pairs. -/
theorem parseQuery_writePairs (pairs : List (Str × Str)) :
    parseQuery (writePairs [] pairs) = (pairs, false) := by
  rw [writePairs_eq, parseQuery_intercalate]

/-! ## The redacted query -/

theorem sanitizeRawQuery_eq {raw : Str} (wellFormed : (parseQuery raw).2 = false) :
    sanitizeRawQuery raw = writePairs [] (sortPairs (redactPairs [] (parseQuery raw).1)) := by
  rw [sanitizeRawQuery]
  split
  · next blank =>
      subst blank
      rfl
  · simp [wellFormed]

/-- What the redaction does to a well-formed query. -/
structure RedactsExactly (raw : Str) : Prop where
  wellFormed : (parseQuery (sanitizeRawQuery raw)).2 = false
  pairs : IsRedaction (parseQuery raw).1 (parseQuery (sanitizeRawQuery raw)).1
  hides : ∀ raw', (parseQuery raw').2 = false →
    SameButSensitive (parseQuery raw).1 (parseQuery raw').1 →
      sanitizeRawQuery raw' = sanitizeRawQuery raw
  twice : sanitizeRawQuery (sanitizeRawQuery raw) = sanitizeRawQuery raw

theorem redacts_exactly {raw : Str} (wellFormed : (parseQuery raw).2 = false) :
    RedactsExactly raw := by
  have parsed : parseQuery (sanitizeRawQuery raw) =
      (sortPairs (redactPairs [] (parseQuery raw).1), false) := by
    rw [sanitizeRawQuery_eq wellFormed, parseQuery_writePairs]
  have redaction := isRedaction_sort (parseQuery raw).1
  refine ⟨by rw [parsed], by rwa [parsed], fun raw' wellFormed' same => ?_, ?_⟩
  · rw [sanitizeRawQuery_eq wellFormed, sanitizeRawQuery_eq wellFormed', redactPairs_congr same]
  · rw [sanitizeRawQuery_eq (by rw [parsed]), parsed,
      (isRedaction_sort _).unique redaction.self, ← sanitizeRawQuery_eq wellFormed]

/-- Sensitive keys in different letter case, an empty key and an escape. -/
theorem redacts_exactly_token :
    RedactsExactly "token=a&Token=b&=x&token=c&a=%26".toList :=
  redacts_exactly (by decide +kernel)

end Proxemby
