import Proxemby.Lib.Text

/-!
# Dot segments

The routine `remove_dot_segments` of RFC 3986, section 5.2.4, on its two buffers, and
what it comes to on the segments of a path: a `..` takes away the last segment that is
still there.
-/

namespace DotSegments

open Text

/-- The output buffer without its last segment and the slash before it, if any. -/
def dropSegment (output : List Char) : List Char :=
  (output.rdropWhile (· ≠ '/')).dropLast

/-- The loop of `remove_dot_segments`, one rule of the RFC a turn. -/
def removeLoop (output : List Char) : List Char → List Char
  | [] => output
  -- Rule A.
  | '.' :: '.' :: '/' :: input => removeLoop output input
  | '.' :: '/' :: input => removeLoop output input
  -- Rule B.
  | '/' :: '.' :: '/' :: input => removeLoop output ('/' :: input)
  | ['/', '.'] => removeLoop output ['/']
  -- Rule C.
  | '/' :: '.' :: '.' :: '/' :: input => removeLoop (dropSegment output) ('/' :: input)
  | ['/', '.', '.'] => removeLoop (dropSegment output) ['/']
  -- Rule D.
  | ['.'] => output
  | ['.', '.'] => output
  -- Rule E.
  | c :: input =>
      removeLoop (output ++ c :: input.takeWhile (· ≠ '/')) (input.dropWhile (· ≠ '/'))
termination_by input => input.length
decreasing_by
  all_goals simp only [List.length_cons, List.length_nil]
  all_goals first | omega | exact Nat.lt_succ_of_le (List.dropWhile_suffix _).length_le

/-- `remove_dot_segments` of a path. -/
def removeDotSegments (path : List Char) : List Char := removeLoop [] path

/-- A `.` or a `..`. -/
def isDot (segment : List Char) : Bool := segment = ['.'] || segment = ['.', '.']

/-- What the output buffer holds: a first segment without a slash before it, and
segments with one. -/
structure Kept where
  head : List Char
  rest : List (List Char)
  deriving DecidableEq

namespace Kept

def text (kept : Kept) : List Char := kept.head ++ kept.rest.flatMap ('/' :: ·)

def segments (kept : Kept) : List (List Char) := kept.head :: kept.rest

/-- Take the last segment away. -/
def pop (kept : Kept) : Kept :=
  if kept.rest = [] then ⟨[], []⟩ else { kept with rest := kept.rest.dropLast }

/-- Go on to the next segment. -/
def next (kept : Kept) (segment : List Char) : Kept :=
  if segment = ['.'] then kept
  else if segment = ['.', '.'] then kept.pop
  else { kept with rest := kept.rest ++ [segment] }

/-- No segment contains a slash. -/
def Fresh (kept : Kept) : Prop := ∀ segment ∈ kept.segments, '/' ∉ segment

theorem Fresh.pop {kept : Kept} (fresh : kept.Fresh) : kept.pop.Fresh := by
  rw [Kept.pop]
  split
  · simp [Fresh, segments]
  · intro segment member
    rw [segments, List.mem_cons] at member
    apply fresh
    rw [segments, List.mem_cons]
    exact member.imp_right fun later => List.dropLast_subset _ later

theorem Fresh.next {kept : Kept} (fresh : kept.Fresh) {segment : List Char}
    (noSlash : '/' ∉ segment) : (kept.next segment).Fresh := by
  rw [Kept.next]
  split
  · exact fresh
  · split
    · exact fresh.pop
    · intro other member
      simp only [segments, List.mem_cons, List.mem_append, List.not_mem_nil, or_false] at member
      rcases member with rfl | member | rfl
      · exact fresh _ List.mem_cons_self
      · exact fresh other (List.mem_cons_of_mem _ member)
      · exact noSlash

theorem dropSegment_append {before segment : List Char} (noSlash : '/' ∉ segment) :
    dropSegment (before ++ '/' :: segment) = before := by
  have all : ∀ c ∈ segment.reverse, decide (c ≠ '/') = true := by
    intro c member
    rw [decide_eq_true_eq]
    rintro rfl
    exact noSlash (List.mem_reverse.mp member)
  have dropped : (before ++ '/' :: segment).rdropWhile (· ≠ '/') = before ++ ['/'] := by
    rw [List.rdropWhile, List.reverse_append, List.reverse_cons, List.append_assoc,
      List.dropWhile_append_of_pos all]
    simp
  rw [dropSegment, dropped, List.dropLast_concat]

theorem dropSegment_self {segment : List Char} (noSlash : '/' ∉ segment) :
    dropSegment segment = [] := by
  have all : segment.rdropWhile (· ≠ '/') = [] := by
    rw [List.rdropWhile_eq_nil_iff]
    intro c member
    rw [decide_eq_true_eq]
    rintro rfl
    exact noSlash member
  rw [dropSegment, all, List.dropLast_nil]

/-- Rule C on the output buffer is `pop`. -/
theorem dropSegment_text {kept : Kept} (fresh : kept.Fresh) :
    dropSegment kept.text = kept.pop.text := by
  obtain ⟨head, rest⟩ := kept
  rcases List.eq_nil_or_concat rest with rfl | ⟨rest, last, rfl⟩
  · have noSlash : '/' ∉ head := fresh head List.mem_cons_self
    simp [text, pop, dropSegment_self noSlash]
  · have noSlash : '/' ∉ last := fresh last (by simp [segments])
    simp only [text, pop, List.concat_eq_append, List.flatMap_append, List.flatMap_cons,
      List.flatMap_nil, List.append_nil, ← List.append_assoc, List.append_eq_nil_iff,
      List.cons_ne_self, and_false, ↓reduceIte, List.dropLast_concat]
    exact dropSegment_append noSlash

end Kept

/-! ## The loop on segments -/

/-- The rest of a path after a segment: nothing, or more segments with a slash each. -/
theorem takeWhile_segment {segment : List Char} (noSlash : '/' ∉ segment)
    (segments : List (List Char)) :
    (segment ++ segments.flatMap ('/' :: ·)).takeWhile (· ≠ '/') = segment ∧
      (segment ++ segments.flatMap ('/' :: ·)).dropWhile (· ≠ '/') =
        segments.flatMap ('/' :: ·) := by
  have all : ∀ c ∈ segment, decide (c ≠ '/') = true := by
    intro c member
    rw [decide_eq_true_eq]
    rintro rfl
    exact noSlash member
  rw [List.takeWhile_append_of_pos all, List.dropWhile_append_of_pos all]
  cases segments with
  | nil => simp
  | cons next segments => simp

/-- Rule E moves a segment that is no dot segment, with the slash before it or as the
first one of a path without one. -/
theorem removeLoop_move (output : List Char) {c : Char} {piece : List Char}
    (noSlash : '/' ∉ piece) (slashed : c = '/' → isDot piece = false)
    (bare : c ≠ '/' → isDot (c :: piece) = false) (segments : List (List Char)) :
    removeLoop output (c :: (piece ++ segments.flatMap ('/' :: ·))) =
      removeLoop (output ++ c :: piece) (segments.flatMap ('/' :: ·)) := by
  obtain ⟨taken, dropped⟩ := takeWhile_segment noSlash segments
  generalize piece ++ segments.flatMap ('/' :: ·) = input at taken dropped
  generalize whole : c :: input = buffer
  rw [removeLoop.eq_def]
  split
  case h_1 => cases whole
  case h_10 =>
    obtain ⟨rfl, rfl⟩ := List.cons.inj whole
    rw [taken, dropped]
  -- The other rules ask for a dot segment.
  all_goals
    obtain ⟨rfl, rfl⟩ := List.cons.inj whole
    simp at taken
    subst taken
    first | exact absurd (slashed rfl) (by decide) | exact absurd (bare (by decide)) (by decide)

/-- What the loop makes of the segments that are still in its input. -/
theorem removeLoop_segments {kept : Kept} (fresh : kept.Fresh) {segments : List (List Char)}
    (noSlash : ∀ segment ∈ segments, '/' ∉ segment) :
    removeLoop kept.text (segments.flatMap ('/' :: ·)) =
      (segments.foldl Kept.next kept).text ++
        (if segments.getLast?.any isDot then ['/'] else []) := by
  induction segments generalizing kept with
  | nil => simp [removeLoop]
  | cons segment segments ih =>
      rw [List.forall_mem_cons] at noSlash
      have go := fun {kept : Kept} (fresh : kept.Fresh) => ih fresh noSlash.2
      by_cases dot : segment = ['.']
      · subst dot
        cases segments with
        | nil => simp [removeLoop, Kept.next, isDot]
        | cons segment' segments =>
            rw [List.flatMap_cons, List.flatMap_cons]
            simp only [List.cons_append, List.nil_append, removeLoop]
            simpa [Kept.next] using go fresh
      · by_cases dots : segment = ['.', '.']
        · subst dots
          cases segments with
          | nil => simp [removeLoop, Kept.next, isDot, Kept.dropSegment_text fresh]
          | cons segment' segments =>
              rw [List.flatMap_cons, List.flatMap_cons]
              simp only [List.cons_append, List.nil_append, removeLoop]
              simpa [Kept.next, Kept.dropSegment_text fresh] using go fresh.pop
        · have plain : isDot segment = false := by simp [isDot, dot, dots]
          have next : (kept.next segment).text = kept.text ++ '/' :: segment := by
            simp [Kept.next, dot, dots, Kept.text]
          rw [List.flatMap_cons, List.cons_append,
            removeLoop_move _ noSlash.1 (fun _ => plain) (fun other => absurd rfl other), ← next,
            go (fresh.next noSlash.1), List.foldl_cons]
          cases segments with
          | nil => simp [plain]
          | cons segment' segments => simp

/-! ## The segments of the result -/

/-- What is kept of a list of segments: dot segments in front leave nothing behind. -/
def keep (segments : List (List Char)) : Kept :=
  match segments.dropWhile isDot with
  | [] => ⟨[], []⟩
  | head :: rest => rest.foldl Kept.next ⟨head, []⟩

/-- The segments of a path that its dot segments leave; a dot segment at the end leaves an
empty one. -/
def remaining (segments : List (List Char)) : List (List Char) :=
  (keep segments).segments ++
    if (segments.dropWhile isDot).tail.getLast?.any isDot then [[]] else []

theorem Kept.Fresh.foldl {kept : Kept} (fresh : kept.Fresh) {segments : List (List Char)}
    (noSlash : ∀ segment ∈ segments, '/' ∉ segment) : (segments.foldl Kept.next kept).Fresh := by
  induction segments generalizing kept with
  | nil => exact fresh
  | cons segment segments ih =>
      rw [List.forall_mem_cons] at noSlash
      exact ih (fresh.next noSlash.1) noSlash.2

theorem remaining_noSlash {segments : List (List Char)}
    (noSlash : ∀ segment ∈ segments, '/' ∉ segment) :
    ∀ segment ∈ remaining segments, '/' ∉ segment := by
  have kept : (keep segments).Fresh := by
    rw [keep]
    split
    · simp [Kept.Fresh, Kept.segments]
    · next head rest cut =>
        have all : ∀ segment ∈ head :: rest, '/' ∉ segment := by
          rw [← cut]
          exact fun segment member => noSlash segment (List.dropWhile_subset _ member)
        rw [List.forall_mem_cons] at all
        exact Kept.Fresh.foldl (by simpa [Kept.Fresh, Kept.segments] using all.1) all.2
  intro segment member
  rw [remaining, List.mem_append] at member
  rcases member with member | member
  · exact kept segment member
  · split at member
    · rw [List.mem_singleton] at member
      simp [member]
    · cases member

theorem remaining_plain {segment : List Char} (plain : isDot segment = false)
    (segments : List (List Char)) :
    remaining (segment :: segments) = (segments.foldl Kept.next ⟨segment, []⟩).segments ++
      if segments.getLast?.any isDot then [[]] else [] := by
  rw [remaining, keep, List.dropWhile_cons_of_neg (by simp [plain])]
  rfl

/-- A path that does not start with a dot segment. -/
theorem removeLoop_plain {segment : List Char} {segments : List (List Char)}
    (noSlash : ∀ s ∈ segment :: segments, '/' ∉ s) (plain : isDot segment = false) :
    removeLoop [] (segment ++ segments.flatMap ('/' :: ·)) =
      ['/'].intercalate (remaining (segment :: segments)) := by
  rw [List.forall_mem_cons] at noSlash
  have fresh : Kept.Fresh ⟨segment, []⟩ := by simpa [Kept.Fresh, Kept.segments] using noSlash.1
  have start : removeLoop [] (segment ++ segments.flatMap ('/' :: ·)) =
      removeLoop (Kept.text ⟨segment, []⟩) (segments.flatMap ('/' :: ·)) := by
    cases segment with
    | nil => simp [Kept.text]
    | cons c piece =>
        rw [List.mem_cons, not_or] at noSlash
        rw [List.cons_append, removeLoop_move [] noSlash.1.2
          (fun same => absurd same.symm noSlash.1.1) (fun _ => plain)]
        simp [Kept.text]
  rw [start, removeLoop_segments fresh noSlash.2, remaining_plain plain, Kept.segments,
    List.cons_append, intercalate_cons, List.flatMap_append, Kept.text, List.append_assoc]
  by_cases last : segments.getLast?.any isDot = true
  · simp [last]
  · simp [last]

/-- The loop from the start, on a path in segments. -/
theorem removeLoop_join {segment : List Char} {segments : List (List Char)}
    (noSlash : ∀ s ∈ segment :: segments, '/' ∉ s) :
    removeLoop [] (segment ++ segments.flatMap ('/' :: ·)) =
      ['/'].intercalate (remaining (segment :: segments)) := by
  induction segments generalizing segment with
  | nil =>
      cases dot : isDot segment with
      | false => exact removeLoop_plain noSlash dot
      | true =>
          rw [isDot, Bool.or_eq_true, decide_eq_true_eq, decide_eq_true_eq] at dot
          rcases dot with rfl | rfl <;> simp [removeLoop, remaining, keep, isDot, Kept.segments]
  | cons next segments ih =>
      cases dot : isDot segment with
      | false => exact removeLoop_plain noSlash dot
      | true =>
          -- Rule A takes the dot segment off the front.
          have skip : remaining (segment :: next :: segments) = remaining (next :: segments) := by
            rw [remaining, remaining, keep, keep, List.dropWhile_cons_of_pos dot]
          rw [skip, ← ih (fun s member => noSlash s (List.mem_cons_of_mem _ member))]
          rw [isDot, Bool.or_eq_true, decide_eq_true_eq, decide_eq_true_eq] at dot
          rcases dot with rfl | rfl <;> simp [removeLoop]

/-- `remove_dot_segments` on the segments of a path. -/
theorem splitOn_removeDotSegments (path : List Char) :
    (removeDotSegments path).splitOn '/' = remaining (path.splitOn '/') := by
  obtain ⟨segment, segments, cut, whole⟩ := exists_splitOn '/' path
  have noSlash : ∀ s ∈ segment :: segments, '/' ∉ s := by
    rw [← cut]
    exact fun s member => notMem_of_mem_splitOn member
  rw [cut, removeDotSegments, whole, removeLoop_join noSlash,
    List.splitOn_intercalate '/' (remaining_noSlash noSlash) (by simp [remaining, Kept.segments])]

example : removeDotSegments "/a/b/c/./../../g".toList = "/a/g".toList := by decide +kernel

example : removeDotSegments "mid/content=5/../6".toList = "mid/6".toList := by decide +kernel

end DotSegments
