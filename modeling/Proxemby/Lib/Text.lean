import Mathlib.Data.List.DropRight
import Mathlib.Data.List.Sort

/-!
# Cutting and trimming text

The cuts that programs make in text at a separator, over an arbitrary alphabet,
and the character classes and letter-case maps that go with them.
-/

namespace Text

section Cuts

variable {α : Type*} [DecidableEq α]

/-- Cut at the first separator, which neither half keeps. -/
def splitOnce (sep : α) : List α → Option (List α × List α)
  | [] => none
  | x :: xs =>
      if x = sep then some ([], xs)
      else (splitOnce sep xs).map fun halves => (x :: halves.1, halves.2)

/-- Cut at the last separator, which neither half keeps. -/
def rsplitOnce (sep : α) (xs : List α) : Option (List α × List α) :=
  (splitOnce sep xs.reverse).map fun halves =>
    (halves.2.reverse, halves.1.reverse)

/-- Cut at the first occurrence of a separating text. -/
def splitOnceText (sep : List α) : List α → Option (List α × List α)
  | [] => if sep = [] then some ([], []) else none
  | x :: xs =>
      if sep.isPrefixOf (x :: xs) then some ([], (x :: xs).drop sep.length)
      else (splitOnceText sep xs).map fun halves => (x :: halves.1, halves.2)

/-- Cut in front of the first separator, which the second half keeps. -/
def splitBefore (sep : α) (xs : List α) : List α × List α :=
  (xs.takeWhile (· ≠ sep), xs.dropWhile (· ≠ sep))

/-- The rest of a list after its longest prefix without `sep` is empty or starts with
`sep`. -/
theorem dropWhile_ne_cases (sep : α) (xs : List α) :
    xs.dropWhile (· ≠ sep) = [] ∨ ∃ after, xs.dropWhile (· ≠ sep) = sep :: after := by
  induction xs with
  | nil => exact .inl rfl
  | cons x xs ih =>
      by_cases equal : x = sep
      · exact .inr ⟨xs, by simp [equal]⟩
      · simpa [List.dropWhile_cons, equal] using ih

/-- Drop the elements that satisfy `test` from both ends. -/
def trimMatches (test : α → Bool) (xs : List α) : List α :=
  (xs.dropWhile test).rdropWhile test

/-- Remove a leading `start`, if there is one. -/
def stripPrefix (start xs : List α) : Option (List α) :=
  if start.isPrefixOf xs then some (xs.drop start.length) else none

theorem splitOnce_append {sep : α} {before : List α} (fresh : sep ∉ before)
    (after : List α) :
    splitOnce sep (before ++ sep :: after) = some (before, after) := by
  induction before with
  | nil => simp [splitOnce]
  | cons x before ih =>
      simp only [List.mem_cons, not_or] at fresh
      simp [splitOnce, Ne.symm fresh.1, ih fresh.2]

theorem splitOnce_eq_none {sep : α} {xs : List α} :
    splitOnce sep xs = none ↔ sep ∉ xs := by
  induction xs with
  | nil => simp [splitOnce]
  | cons x xs ih =>
      by_cases equal : x = sep
      · simp [splitOnce, equal]
      · simp [splitOnce, equal, ih, Ne.symm equal]

theorem rsplitOnce_append {sep : α} {after : List α} (fresh : sep ∉ after) (before : List α) :
    rsplitOnce sep (before ++ sep :: after) = some (before, after) := by
  have cut := splitOnce_append (by simpa using fresh : sep ∉ after.reverse) before.reverse
  have turned : (before ++ sep :: after).reverse = after.reverse ++ sep :: before.reverse := by
    simp
  rw [rsplitOnce, turned, cut, Option.map_some, List.reverse_reverse, List.reverse_reverse]

theorem rsplitOnce_eq_none {sep : α} {xs : List α} :
    rsplitOnce sep xs = none ↔ sep ∉ xs := by
  rw [rsplitOnce, Option.map_eq_none_iff, splitOnce_eq_none, List.mem_reverse]

theorem splitOnce_eq_some {sep : α} {xs before after : List α} :
    splitOnce sep xs = some (before, after) ↔
      sep ∉ before ∧ xs = before ++ sep :: after := by
  constructor
  · intro cut
    induction xs generalizing before after with
    | nil => simp [splitOnce] at cut
    | cons x xs ih =>
        by_cases equal : x = sep
        · simp only [splitOnce, equal, ↓reduceIte, Option.some.injEq,
            Prod.mk.injEq] at cut
          obtain ⟨rfl, rfl⟩ := cut
          simp [equal]
        · simp only [splitOnce, equal, ↓reduceIte, Option.map_eq_some_iff,
            Prod.mk.injEq] at cut
          obtain ⟨⟨before', after'⟩, inner, rfl, rfl⟩ := cut
          obtain ⟨fresh, rfl⟩ := ih inner
          exact ⟨by simp [Ne.symm equal, fresh], rfl⟩
  · rintro ⟨fresh, rfl⟩
    exact splitOnce_append fresh after

@[simp] theorem stripPrefix_append (start rest : List α) :
    stripPrefix start (start ++ rest) = some rest := by
  have leads : start.isPrefixOf (start ++ rest) = true := by
    rw [List.isPrefixOf_iff_prefix]
    exact List.prefix_append start rest
  simp [stripPrefix, leads]

theorem stripPrefix_eq_some {start xs rest : List α} :
    stripPrefix start xs = some rest ↔ xs = start ++ rest := by
  constructor
  · intro stripped
    simp only [stripPrefix, Option.ite_none_right_eq_some, Option.some.injEq] at stripped
    obtain ⟨leads, rfl⟩ := stripped
    obtain ⟨tail, rfl⟩ := List.isPrefixOf_iff_prefix.mp leads
    simp
  · rintro rfl
    exact stripPrefix_append start rest

theorem rsplitOnce_eq_some {sep : α} {xs before after : List α} :
    rsplitOnce sep xs = some (before, after) ↔
      sep ∉ after ∧ xs = before ++ sep :: after := by
  constructor
  · intro cut
    rw [rsplitOnce, Option.map_eq_some_iff] at cut
    obtain ⟨⟨back, front⟩, found, same⟩ := cut
    obtain ⟨rfl, rfl⟩ := Prod.mk.inj same
    obtain ⟨fresh, whole⟩ := splitOnce_eq_some.mp found
    have turned := congrArg List.reverse whole
    exact ⟨by simpa using fresh, by simpa using turned⟩
  · rintro ⟨fresh, rfl⟩
    exact rsplitOnce_append fresh before

omit [DecidableEq α] in
theorem trimMatches_sublist (test : α → Bool) (xs : List α) : (trimMatches test xs).Sublist xs :=
  (List.rdropWhile_prefix test _).sublist.trans (List.dropWhile_sublist test)

omit [DecidableEq α] in
/-- There is nothing to trim off a list without elements that satisfy the test. -/
theorem trimMatches_self {test : α → Bool} {xs : List α} (fresh : ∀ x ∈ xs, test x = false) :
    trimMatches test xs = xs := by
  rw [trimMatches, List.dropWhile_eq_self_iff.mpr, List.rdropWhile_eq_self_iff.mpr]
  · intro notNil
    simp [fresh _ (List.getLast_mem notNil)]
  · intro notNil
    simp [fresh _ (List.getElem_mem notNil)]

omit [DecidableEq α] in
@[simp] theorem trimMatches_dropWhile (test : α → Bool) (xs : List α) :
    trimMatches test (xs.dropWhile test) = trimMatches test xs := by
  rw [trimMatches, trimMatches, List.dropWhile_idempotent]

omit [DecidableEq α] in
@[simp] theorem dropWhile_trimMatches (test : α → Bool) (xs : List α) :
    (trimMatches test xs).dropWhile test = trimMatches test xs := by
  rw [List.dropWhile_eq_self_iff]
  intro nonempty
  -- what is left begins like the list that was cut in front
  have start : trimMatches test xs <+: xs.dropWhile test := List.rdropWhile_prefix test _
  rw [start.getElem nonempty]
  exact List.dropWhile_get_zero_not test xs (nonempty.trans_le start.length_le)

omit [DecidableEq α] in
@[simp] theorem trimMatches_trimMatches (test : α → Bool) (xs : List α) :
    trimMatches test (trimMatches test xs) = trimMatches test xs := by
  rw [trimMatches, dropWhile_trimMatches, trimMatches, List.rdropWhile_idempotent]

omit [DecidableEq α] in
theorem trimMatches_eq_nil_iff {test : α → Bool} {xs : List α} :
    trimMatches test xs = [] ↔ ∀ x ∈ xs, test x = true := by
  rw [trimMatches, List.rdropWhile_eq_nil_iff]
  constructor
  · intro dropped
    have none : xs.dropWhile test = [] := by
      by_contra some
      have first := List.head_dropWhile_not test some
      rw [dropped _ (List.head_mem some)] at first
      cases first
    exact List.dropWhile_eq_nil_iff.mp none
  · intro every x member
    exact every x ((List.dropWhile_sublist test).subset member)

omit [DecidableEq α] in
theorem trimMatches_congr {test other : α → Bool} {xs : List α}
    (same : ∀ x ∈ xs, test x = other x) : trimMatches test xs = trimMatches other xs := by
  have drop (test other : α → Bool) (xs : List α) (same : ∀ x ∈ xs, test x = other x) :
      xs.dropWhile test = xs.dropWhile other := by
    induction xs with
    | nil => rfl
    | cons x xs ih =>
        obtain ⟨here, rest⟩ := List.forall_mem_cons.mp same
        rw [List.dropWhile_cons, List.dropWhile_cons, here, ih rest]
  rw [trimMatches, trimMatches, drop test other xs same, List.rdropWhile, List.rdropWhile,
    drop test other]
  intro x member
  exact same x ((List.dropWhile_sublist other).subset (List.mem_reverse.mp member))

omit [DecidableEq α] in
/-- What is trimmed off satisfies the test. -/
theorem exists_trimMatches (test : α → Bool) (xs : List α) :
    ∃ front back, xs = front ++ trimMatches test xs ++ back ∧ (∀ x ∈ front, test x = true) ∧
      ∀ x ∈ back, test x = true := by
  refine ⟨xs.takeWhile test, (xs.dropWhile test).rtakeWhile test, ?_, ?_, ?_⟩
  · rw [trimMatches, List.append_assoc, List.rdropWhile_append_rtakeWhile,
      List.takeWhile_append_dropWhile]
  · exact fun x member => List.mem_takeWhile_imp member
  · intro x member
    rw [List.rtakeWhile, List.mem_reverse] at member
    exact List.mem_takeWhile_imp member

omit [DecidableEq α] in
theorem dropWhile_append_kept {test : α → Bool} {back : List α} (some : back ≠ [])
    (first : test (back.head some) = false) (front : List α) :
    (front ++ back).dropWhile test = front.dropWhile test ++ back := by
  rw [List.dropWhile_append]
  split
  · next none =>
      obtain ⟨x, back, rfl⟩ := List.exists_cons_of_ne_nil some
      rw [List.isEmpty_iff.mp none, List.nil_append]
      exact List.dropWhile_cons_of_neg (by simpa using first)
  · rfl

omit [DecidableEq α] in
theorem rdropWhile_append_kept {test : α → Bool} {front : List α} (some : front ≠ [])
    (last : test (front.getLast some) = false) (back : List α) :
    (front ++ back).rdropWhile test = front ++ back.rdropWhile test := by
  have kept := dropWhile_append_kept (List.reverse_ne_nil_iff.mpr some)
    (by rwa [List.head_reverse]) back.reverse
  rw [List.rdropWhile, List.reverse_append, kept, List.reverse_append, List.reverse_reverse,
    List.rdropWhile]

omit [DecidableEq α] in
/-- What cannot be trimmed at its ends stays whole. -/
theorem trimMatches_append {test : α → Bool} {middle : List α} (some : middle ≠ [])
    (first : test (middle.head some) = false) (last : test (middle.getLast some) = false)
    (front back : List α) :
    trimMatches test (front ++ middle ++ back) =
      front.dropWhile test ++ middle ++ back.rdropWhile test := by
  rw [trimMatches, List.append_assoc, dropWhile_append_kept (by simp [some])
    (by rwa [List.head_append_of_ne_nil some]), ← List.append_assoc,
    rdropWhile_append_kept (by simp [some]) (by rwa [List.getLast_append_of_ne_nil _ some])]

omit [DecidableEq α] in
theorem head?_trimMatches {test : α → Bool} {xs : List α} :
    ∀ x ∈ (trimMatches test xs).head?, test x = false := by
  intro x first
  have kept := List.head?_dropWhile_not test (trimMatches test xs)
  rw [dropWhile_trimMatches, first] at kept
  exact kept

omit [DecidableEq α] in
theorem getLast?_trimMatches {test : α → Bool} {xs : List α} :
    ∀ x ∈ (trimMatches test xs).getLast?, test x = false := by
  intro x last
  rw [Option.mem_def, trimMatches, List.rdropWhile, List.getLast?_reverse] at last
  have kept := List.head?_dropWhile_not test (xs.dropWhile test).reverse
  rw [last] at kept
  exact kept

/-- What is left of a list without the elements at its ends that satisfy a test. -/
structure Trims (test : α → Bool) (xs ys : List α) : Prop where
  ends : ∃ front back, xs = front ++ ys ++ back ∧ (∀ x ∈ front, test x = true) ∧
    ∀ x ∈ back, test x = true
  first : ∀ x ∈ ys.head?, test x = false
  last : ∀ x ∈ ys.getLast?, test x = false

omit [DecidableEq α] in
theorem trims_iff {test : α → Bool} {xs ys : List α} :
    Trims test xs ys ↔ trimMatches test xs = ys := by
  constructor
  · rintro ⟨⟨front, back, rfl, frontOff, backOff⟩, first, last⟩
    by_cases none : ys = []
    · subst none
      rw [trimMatches_eq_nil_iff]
      intro x member
      rw [List.append_nil, List.mem_append] at member
      exact member.elim (frontOff x) (backOff x)
    · rw [trimMatches_append none (first _ (List.head?_eq_some_head none))
        (last _ (List.getLast?_eq_some_getLast none)), List.dropWhile_eq_nil_iff.mpr frontOff,
        List.rdropWhile_eq_nil_iff.mpr backOff, List.nil_append, List.append_nil]
  · rintro rfl
    exact ⟨exists_trimMatches test xs, head?_trimMatches, getLast?_trimMatches⟩

/-! ## Parts between separators -/

omit [DecidableEq α] in
theorem intercalate_cons (sep : α) (part : List α) (parts : List (List α)) :
    [sep].intercalate (part :: parts) = part ++ parts.flatMap (sep :: ·) := by
  induction parts generalizing part with
  | nil => simp
  | cons next parts ih => rw [List.intercalate_cons_cons, ih, List.flatMap_cons]; simp

omit [DecidableEq α] in
theorem intercalate_append (sep : α) {front back : List (List α)} (left : front ≠ [])
    (right : back ≠ []) :
    [sep].intercalate (front ++ back) =
      [sep].intercalate front ++ sep :: [sep].intercalate back := by
  obtain ⟨part, parts, rfl⟩ := List.exists_cons_of_ne_nil left
  obtain ⟨part', parts', rfl⟩ := List.exists_cons_of_ne_nil right
  rw [List.cons_append, intercalate_cons, intercalate_cons, intercalate_cons, List.flatMap_append,
    List.flatMap_cons]
  simp

omit [DecidableEq α] in
/-- Empty parts at the end are separators. -/
theorem intercalate_append_replicate (sep : α) {parts : List (List α)} (some : parts ≠ [])
    (n : Nat) :
    [sep].intercalate (parts ++ List.replicate n []) =
      [sep].intercalate parts ++ List.replicate n sep := by
  obtain ⟨part, parts, rfl⟩ := List.exists_cons_of_ne_nil some
  have ends : (List.replicate n []).flatMap (sep :: ·) = List.replicate n sep := by
    induction n with
    | zero => rfl
    | succ n ih => rw [List.replicate_succ, List.flatMap_cons, ih]; rfl
  rw [List.cons_append, intercalate_cons, intercalate_cons, List.flatMap_append, ends,
    List.append_assoc]

/-- A text is its first part and the others, each behind a separator. -/
theorem exists_splitOn (sep : α) (xs : List α) :
    ∃ part parts, xs.splitOn sep = part :: parts ∧ xs = part ++ parts.flatMap (sep :: ·) := by
  cases cut : xs.splitOn sep with
  | nil => exact absurd cut (List.splitOn_ne_nil sep xs)
  | cons part parts =>
      refine ⟨part, parts, rfl, ?_⟩
      rw [← intercalate_cons, ← cut, List.intercalate_splitOn]

/-- The parts are made of what is in the text. -/
theorem mem_of_mem_splitOn {sep : α} {xs part : List α} (member : part ∈ xs.splitOn sep) {x : α}
    (inside : x ∈ part) : x ∈ xs := by
  obtain ⟨first, parts, cut, whole⟩ := exists_splitOn sep xs
  rw [cut] at member
  rw [whole]
  rcases List.mem_cons.mp member with rfl | later
  · exact List.mem_append_left _ inside
  · exact List.mem_append_right _
      (List.mem_flatMap.mpr ⟨part, later, List.mem_cons_of_mem _ inside⟩)

/-- No part contains the separator. -/
theorem notMem_of_mem_splitOn {sep : α} {xs part : List α} (member : part ∈ xs.splitOn sep) :
    sep ∉ part := by
  induction xs generalizing part with
  | nil =>
      rw [List.splitOn_nil, List.mem_singleton] at member
      simp [member]
  | cons x xs ih =>
      rw [List.splitOn_cons_eq_if_modifyHead] at member
      split at member
      · rcases List.mem_cons.mp member with rfl | member
        · simp
        · exact ih member
      · next other =>
          obtain ⟨first, parts, cut, -⟩ := exists_splitOn sep xs
          rw [cut] at member ih
          rcases List.mem_cons.mp member with rfl | member
          · rw [List.mem_cons, not_or]
            exact ⟨fun same => other (by simp [same]), ih List.mem_cons_self⟩
          · exact ih (List.mem_cons_of_mem _ member)

/-- Separators in front of a text are empty parts in front of the others. -/
theorem splitOn_dropWhile {sep : α} {xs : List α} (some : ∃ x ∈ xs, x ≠ sep) :
    (xs.dropWhile (· = sep)).splitOn sep = (xs.splitOn sep).dropWhile (· = []) := by
  induction xs with
  | nil => simp at some
  | cons x xs ih =>
      rw [List.splitOn_cons_eq_if_modifyHead]
      by_cases same : x = sep
      · subst same
        simpa using ih (by simpa using some)
      · obtain ⟨first, parts, cut, -⟩ := exists_splitOn sep xs
        simp [same, List.splitOn_cons_eq_if_modifyHead, cut]

/-- Separators behind a text are empty parts behind the others. -/
theorem splitOn_rdropWhile {sep : α} {xs : List α} (some : ∃ x ∈ xs, x ≠ sep) :
    (xs.rdropWhile (· = sep)).splitOn sep = (xs.splitOn sep).rdropWhile (· = []) := by
  induction xs using List.reverseRecOn with
  | nil => simp at some
  | append_singleton xs x ih =>
      by_cases same : x = sep
      · subst same
        rw [List.rdropWhile_concat_pos _ _ _ (by simp), List.splitOn_append_cons_self,
          List.splitOn_nil, List.rdropWhile_concat_pos _ _ _ (by simp)]
        exact ih (by simpa using some)
      · rw [List.rdropWhile_concat_neg _ _ _ (by simpa using same), eq_comm,
          List.rdropWhile_eq_self_iff]
        intro notNil
        rw [decide_eq_true_eq]
        intro empty
        obtain ⟨part, parts, cut, whole⟩ := exists_splitOn sep (xs ++ [x])
        simp only [cut] at empty
        rcases List.eq_nil_or_concat parts with rfl | ⟨parts, last, rfl⟩
        · rw [List.getLast_singleton] at empty
          simp [empty] at whole
        · obtain rfl : last = [] := by simpa using empty
          rw [List.concat_eq_append, List.flatMap_append, ← List.append_assoc] at whole
          exact same (by simpa using (List.append_inj' whole rfl).2)

/-- Separators around a text are empty parts around the others. -/
theorem splitOn_trimMatches {sep : α} {xs : List α} (some : ∃ x ∈ xs, x ≠ sep) :
    (trimMatches (· = sep) xs).splitOn sep = trimMatches (· = []) (xs.splitOn sep) := by
  have inner : ∃ x ∈ xs.dropWhile (· = sep), x ≠ sep := by
    have notNil : xs.dropWhile (· = sep) ≠ [] := by
      rw [ne_eq, List.dropWhile_eq_nil_iff]
      simpa using some
    exact ⟨_, List.head_mem notNil, by simpa using List.head_dropWhile_not _ notNil⟩
  rw [trimMatches, splitOn_rdropWhile inner, splitOn_dropWhile some, trimMatches]

/-- A text of separators alone has empty parts alone. -/
theorem trimMatches_splitOn_eq_nil {sep : α} {xs : List α} (all : ∀ x ∈ xs, x = sep) :
    trimMatches (· = []) (xs.splitOn sep) = [] := by
  rw [trimMatches_eq_nil_iff]
  intro part member
  rw [decide_eq_true_eq, List.eq_nil_iff_forall_not_mem]
  intro x inPart
  obtain rfl : x = sep := by
    obtain ⟨first, parts, cut, whole⟩ := exists_splitOn sep xs
    rw [cut, List.mem_cons] at member
    apply all
    rw [whole, List.mem_append, List.mem_flatMap]
    rcases member with rfl | member
    · exact .inl inPart
    · exact .inr ⟨part, member, List.mem_cons_of_mem _ inPart⟩
  exact notMem_of_mem_splitOn member inPart

/-! ## Parts in front of terminators -/

/-- Parts of a text, each with a terminator behind it. -/
def terminated (stop : α) (parts : List (List α)) : List α := parts.flatMap (· ++ [stop])

/-- Terminated parts can be told apart when only the last one may contain the terminator. -/
theorem terminated_inj {stop : α} {parts parts' : List (List α)}
    (count : parts.length = parts'.length) (fresh : ∀ part ∈ parts.dropLast, stop ∉ part)
    (fresh' : ∀ part ∈ parts'.dropLast, stop ∉ part)
    (same : terminated stop parts = terminated stop parts') : parts = parts' := by
  induction parts generalizing parts' with
  | nil => exact (List.length_eq_zero_iff.mp count.symm).symm
  | cons part parts ih =>
      cases parts' with
      | nil => cases count
      | cons part' parts' =>
          rw [List.length_cons, List.length_cons, Nat.add_right_cancel_iff] at count
          rw [terminated, terminated, List.flatMap_cons, List.flatMap_cons] at same
          cases parts with
          | nil =>
              obtain rfl := List.length_eq_zero_iff.mp count.symm
              simpa using same
          | cons second parts =>
              obtain ⟨second', others, rfl⟩ := List.exists_cons_of_length_eq_add_one count.symm
              have cut := splitOnce_append (fresh part List.mem_cons_self)
                (terminated stop (second :: parts))
              have cut' := splitOnce_append (fresh' part' List.mem_cons_self)
                (terminated stop (second' :: others))
              rw [List.append_assoc, List.append_assoc, List.singleton_append,
                List.singleton_append] at same
              have halves := cut.symm.trans ((congrArg (splitOnce stop) same).trans cut')
              obtain ⟨rfl, rest⟩ := Prod.mk.inj (Option.some.inj halves)
              rw [ih count (fun p member => fresh p (List.mem_cons_of_mem _ member))
                (fun p member => fresh' p (List.mem_cons_of_mem _ member)) rest]

omit [DecidableEq α] in
theorem terminated_eq_intercalate (stop : α) (parts : List (List α)) :
    terminated stop parts = [stop].intercalate (parts ++ [[]]) := by
  induction parts with
  | nil => rfl
  | cons part parts ih =>
      obtain ⟨second, rest, split⟩ := List.exists_cons_of_ne_nil (l := parts ++ [[]]) (by simp)
      rw [terminated, List.flatMap_cons, ← terminated, ih, List.cons_append, split]
      simp [List.intercalate_cons_cons]

/-- The parts of a text that ends in a terminator. -/
def terminatedParts (stop : α) (xs : List α) : Option (List (List α)) :=
  let parts := xs.splitOn stop
  if parts.getLast? = some [] then some parts.dropLast else none

theorem terminatedParts_terminated {stop : α} {parts : List (List α)}
    (fresh : ∀ part ∈ parts, stop ∉ part) :
    terminatedParts stop (terminated stop parts) = some parts := by
  have cut : (terminated stop parts).splitOn stop = parts ++ [[]] := by
    rw [terminated_eq_intercalate]
    refine List.splitOn_intercalate stop ?_ (by simp)
    simpa [or_imp, forall_and] using fresh
  simp [terminatedParts, cut]

end Cuts

/-! ## Characters -/

/-- The Unicode `White_Space` property. -/
def isWhitespace (c : Char) : Bool :=
  let n := c.toNat
  (9 ≤ n && n ≤ 13) || n == 0x20 || n == 0x85 || n == 0xA0 || n == 0x1680 ||
    (0x2000 ≤ n && n ≤ 0x200A) || n == 0x2028 || n == 0x2029 || n == 0x202F ||
    n == 0x205F || n == 0x3000

/-- The Unicode general category `Cc`. -/
def isControl (c : Char) : Bool :=
  let n := c.toNat
  n < 0x20 || (0x7F ≤ n && n < 0xA0)

/-- Text without surrounding white space. -/
def trim (text : List Char) : List Char := trimMatches isWhitespace text

@[simp] theorem trim_trim (text : List Char) : trim (trim text) = trim text :=
  trimMatches_trimMatches isWhitespace text

/-- ASCII capitals made small; every other character stays. -/
def toAsciiLowercase (text : List Char) : List Char := text.map Char.toLower

/-- Equality up to the case of ASCII letters. -/
def eqIgnoreAsciiCase (left right : List Char) : Bool :=
  toAsciiLowercase left == toAsciiLowercase right

theorem eqIgnoreAsciiCase_iff {left right : List Char} :
    eqIgnoreAsciiCase left right = true ↔ toAsciiLowercase left = toAsciiLowercase right := by
  rw [eqIgnoreAsciiCase, beq_iff_eq]

/-- Texts that differ in letter case alone have the same characters in small letters. -/
theorem notMem_of_eqIgnoreAsciiCase {text word : List Char}
    (same : eqIgnoreAsciiCase text word = true) {c : Char}
    (other : c.toLower ∉ toAsciiLowercase word) : c ∉ text := by
  intro member
  rw [← eqIgnoreAsciiCase_iff.mp same] at other
  exact other (List.mem_map_of_mem member)

/-! ## Deciding -/

section Deciding

variable {α : Type*} (holds : α → Prop) [DecidablePred holds] (xs : List α)

/-- A property of what is in a list is decided on the list, although some instances go
through all characters, or all octets, there are. -/
instance (priority := high) decidableForallMem : Decidable (∀ x ∈ xs, holds x) :=
  List.decidableBAll holds xs

instance (priority := high) decidableExistsMem : Decidable (∃ x ∈ xs, holds x) :=
  List.decidableBEx holds xs

/-- Membership by the equality of the elements. -/
instance (priority := high) decidableMem {β : Type*} [DecidableEq β] (x : β) (members : List β) :
    Decidable (x ∈ members) :=
  List.instDecidableMemOfLawfulBEq x members

end Deciding

end Text
