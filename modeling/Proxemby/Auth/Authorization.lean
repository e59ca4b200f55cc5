import Proxemby.Auth.Token

/-!
# Authorization headers

What `authorization_token` takes for the token of a header that is a scheme and quoted
parameters.  The scan does not track quotes, so text in the value of another parameter can
pass for a token.
-/

namespace Proxemby

open Text

/-! ## Where the token is -/

/-- A character of the value. -/
def isValueChar (c : Char) : Bool := !(c == '"' || c == ',' || isAsciiWhitespace c)

/-- `tokenParameter`, with what is behind the value. -/
def tokenParameterSlice (rest : Str) : Option (Str × Str) :=
  match rest.dropWhile isAsciiWhitespace with
  | '=' :: rest =>
      let rest := rest.dropWhile isAsciiWhitespace
      let rest := (stripPrefix ['"'] rest).getD rest
      if rest.takeWhile isValueChar = [] then none
      else some (rest.takeWhile isValueChar, rest.dropWhile isValueChar)
  | _ => none

/-- A character that a parameter can follow. -/
def isBoundary (c : Char) : Bool := c == ' ' || c == '\t' || c == ','

/-- The scan of `authorizationToken`, with what is behind the slice it returns. -/
def authorizationSliceFrom (previous : Option Char) : Str → Option (Str × Str)
  | [] => none
  | c :: rest =>
      if previous.all isBoundary && eqIgnoreAsciiCase ((c :: rest).take 5) "token".toList then
        match tokenParameterSlice ((c :: rest).drop 5) with
        | some slice => some slice
        | none => authorizationSliceFrom (some c) rest
      else authorizationSliceFrom (some c) rest

theorem tokenParameter_eq (rest : Str) :
    tokenParameter rest = (tokenParameterSlice rest).map fun slice => slice.1 := by
  rw [tokenParameter]
  split
  · next tail found =>
      simp only [tokenParameterSlice, found]
      change (if List.takeWhile isValueChar _ = [] then none
        else some (List.takeWhile isValueChar _)) = _
      split <;> rfl
  · next other =>
      rw [tokenParameterSlice]
      split
      · next tail found => exact (other tail found).elim
      · rfl

theorem authorizationTokenFrom_cons (previous : Option Char) (c : Char) (rest : Str) :
    authorizationTokenFrom previous (c :: rest) =
      if previous.all isBoundary && eqIgnoreAsciiCase ((c :: rest).take 5) "token".toList then
        (tokenParameter ((c :: rest).drop 5)).or (authorizationTokenFrom (some c) rest)
      else authorizationTokenFrom (some c) rest := by
  rw [authorizationTokenFrom.eq_def]
  cases previous <;> dsimp only [Option.all, isBoundary] <;>
    cases tokenParameter ((c :: rest).drop 5) <;> rfl

/-- The slice that `authorizationToken` returns. -/
theorem authorizationToken_eq (header : Str) :
    authorizationToken header = (authorizationSliceFrom none header).map fun slice => slice.1 := by
  have scan (previous : Option Char) : authorizationTokenFrom previous header =
      (authorizationSliceFrom previous header).map fun slice => slice.1 := by
    induction header generalizing previous with
    | nil => rfl
    | cons c rest ih =>
        rw [authorizationTokenFrom_cons, authorizationSliceFrom, tokenParameter_eq, ih]
        split
        · cases tokenParameterSlice ((c :: rest).drop 5) <;> rfl
        · rfl
  exact scan none

/-! ## Headers -/

/-- A parameter in quotes, with the blanks and commas in front of it. -/
structure AuthParam where
  gap : Str
  name : Str
  value : Str
  gapChars : gap ≠ [] ∧ ∀ c ∈ gap, isBoundary c = true
  nameChars : name ≠ [] ∧ ∀ c ∈ name, c.isAlphanum = true
  valueChars : ∀ c ∈ value, c ≠ '"' ∧ isControl c = false

namespace AuthParam

def text (param : AuthParam) : Str :=
  param.gap ++ (param.name ++ '=' :: '"' :: (param.value ++ ['"']))

/-- The parameter that is asked for. -/
def IsToken (param : AuthParam) : Prop :=
  eqIgnoreAsciiCase param.name "token".toList = true

end AuthParam

/-- A word for the scheme and parameters behind it. -/
structure AuthHeader where
  scheme : Str
  params : List AuthParam
  schemeChars : scheme ≠ [] ∧
    ∀ c ∈ scheme, isAsciiWhitespace c = false ∧ c ≠ ',' ∧ c ≠ '='

/-- The text of some parameters. -/
def paramsText (params : List AuthParam) : Str := params.flatMap AuthParam.text

def AuthHeader.text (header : AuthHeader) : Str := header.scheme ++ paramsText header.params

/-- A value that can be told from its surroundings: not empty, without white space and commas. -/
def PlainToken (value : Str) : Prop :=
  value ≠ [] ∧ ∀ c ∈ value, isWhitespace c = false ∧ c ≠ ','

/-- Text that passes for a token: the word at a blank or a comma, an equals sign, and something
that is no blank and no comma. -/
def MentionsToken (value : Str) : Prop :=
  ∃ before b word gap gap' c rest,
    value = before ++ b :: (word ++ (gap ++ '=' :: (gap' ++ c :: rest))) ∧
    (b = ' ' ∨ b = ',') ∧ eqIgnoreAsciiCase word "token".toList = true ∧
    (∀ x ∈ gap, x = ' ') ∧ (∀ x ∈ gap', x = ' ') ∧ c ≠ ' ' ∧ c ≠ ','

/-- A parameter at which the scan ends: the token with a value that starts like one, or any
parameter that mentions a token. -/
def AuthParam.Ends (param : AuthParam) : Prop :=
  (param.IsToken ∧ ∃ c rest, param.value = c :: rest ∧ c ≠ ' ' ∧ c ≠ ',') ∨
    MentionsToken param.value

/-- The slice that is returned lies in the value of a parameter. -/
def TakenFrom (params : List AuthParam) (param : AuthParam) (slice : Str × Str) : Prop :=
  ∃ front behind left right, params = front ++ param :: behind ∧
    param.value = left ++ slice.1 ++ right ∧ slice.2 = right ++ '"' :: paramsText behind

/-- The token of a header is that of its first token parameter, there is none without one, and
nothing is taken from the value of another parameter. -/
structure ReadsToken (header : AuthHeader) : Prop where
  token : ∀ front param behind, header.params = front ++ param :: behind →
    (∀ other ∈ front, ¬other.IsToken) → param.IsToken → PlainToken param.value →
      authorizationToken header.text = some param.value
  absent : (∀ param ∈ header.params, ¬param.IsToken) → authorizationToken header.text = none
  own : ∀ slice, authorizationSliceFrom none header.text = some slice →
    ∃ param, param.IsToken ∧ TakenFrom header.params param slice

/-- In front of every other parameter that mentions a token the scan has ended. -/
def Undisturbed (params : List AuthParam) : Prop :=
  ∀ front param behind, params = front ++ param :: behind → ¬param.IsToken →
    MentionsToken param.value → ∃ earlier ∈ front, earlier.IsToken ∧ earlier.Ends

/-! ## The scan over one parameter -/

section Scan

variable {previous p : Char} {c : Char} {rest word value after : Str}

/-- A run up to a character that ends it. -/
theorem span_append_stop {test : Char → Bool} (stop : test c = false) (word rest : Str) :
    (word ++ c :: rest).takeWhile test = word.takeWhile test ∧
      (word ++ c :: rest).dropWhile test = word.dropWhile test ++ c :: rest := by
  induction word with
  | nil => simp [stop]
  | cons x word ih =>
      rw [List.cons_append, List.takeWhile_cons, List.takeWhile_cons, List.dropWhile_cons,
        List.dropWhile_cons, ih.1, ih.2]
      split <;> simp

/-- The word `token` in some letter case. -/
theorem isTokenWord_iff {word : Str} :
    eqIgnoreAsciiCase word "token".toList = true ↔
      word.map Char.toLower = "token".toList := by
  have lower : toAsciiLowercase "token".toList = "token".toList := by decide
  rw [eqIgnoreAsciiCase_iff, lower, toAsciiLowercase]

theorem length_of_isTokenWord {word : Str} (token : eqIgnoreAsciiCase word "token".toList = true) :
    word.length = 5 := by
  have length := congrArg List.length (isTokenWord_iff.mp token)
  simpa using length

/-- No character of the word `token` is one of these. -/
theorem notMem_tokenWord {word : Str} (token : eqIgnoreAsciiCase word "token".toList = true)
    {x : Char} (other : x.toLower ∉ "token".toList) : x ∉ word :=
  notMem_of_eqIgnoreAsciiCase token (show x.toLower ∉ toAsciiLowercase "token".toList from other)

/-- A word that ends with a character of no `token` is not looked at beyond it. -/
theorem take_tokenWord {stop : Char} (other : stop.toLower ∉ "token".toList) (text rest : Str) :
    eqIgnoreAsciiCase ((text ++ stop :: rest).take 5) "token".toList = true ↔
      eqIgnoreAsciiCase (text.take 5) "token".toList = true := by
  by_cases long : 5 ≤ text.length
  · rw [List.take_append_of_le_length long]
  · have short : text.length < 5 := Nat.lt_of_not_le long
    constructor
    · intro token
      refine absurd ?_ (notMem_tokenWord token other)
      obtain ⟨n, size⟩ : ∃ n, 5 - text.length = n + 1 := ⟨4 - text.length, by omega⟩
      rw [List.take_append, size, List.take_succ_cons]
      exact List.mem_append_right _ List.mem_cons_self
    · intro token
      have length := length_of_isTokenWord token
      rw [List.length_take] at length
      omega

/-- Behind `token` there is no value when something else than an equals sign follows. -/
theorem tokenParameterSlice_eq_none
    (other : ∀ tail, rest.dropWhile isAsciiWhitespace ≠ '=' :: tail) :
    tokenParameterSlice rest = none := by
  rw [tokenParameterSlice]
  split
  · next tail found => exact absurd found (other tail)
  · rfl

/-- A step of the scan at which no value is found. -/
theorem scan_skip {previous : Option Char}
    (skip : previous.all isBoundary = true →
      eqIgnoreAsciiCase ((c :: rest).take 5) "token".toList = true →
        tokenParameterSlice ((c :: rest).drop 5) = none) :
    authorizationSliceFrom previous (c :: rest) = authorizationSliceFrom (some c) rest := by
  rw [authorizationSliceFrom]
  split
  · next starts =>
      rw [Bool.and_eq_true] at starts
      rw [skip starts.1 starts.2]
  · rfl

/-- The scan goes over a character that no `token` begins with. -/
theorem scan_other {previous : Option Char} (other : c.toLower ∉ "token".toList) :
    authorizationSliceFrom previous (c :: rest) = authorizationSliceFrom (some c) rest := by
  refine scan_skip fun _ token => absurd ?_ (notMem_tokenWord token other)
  exact List.mem_cons_self

/-- The scan goes over a character behind one that no parameter follows. -/
theorem scan_inside (inside : isBoundary p = false) :
    authorizationSliceFrom (some p) (c :: rest) = authorizationSliceFrom (some c) rest := by
  refine scan_skip fun boundary _ => ?_
  rw [Option.all_some, inside] at boundary
  cases boundary

/-- The scan goes over a word up to its last character. -/
theorem scan_word (inside : isBoundary p = false) (chars : ∀ x ∈ word, isBoundary x = false) :
    authorizationSliceFrom (some p) (word ++ rest) =
      authorizationSliceFrom (some ((p :: word).getLast (List.cons_ne_nil _ _))) rest := by
  induction word generalizing p with
  | nil => rfl
  | cons x word ih =>
      obtain ⟨here, later⟩ := List.forall_mem_cons.mp chars
      rw [List.cons_append, scan_inside inside, ih here later, List.getLast_cons_cons]

theorem boundary_notMem_token (boundary : isBoundary c = true) : c.toLower ∉ "token".toList := by
  simp only [isBoundary, Bool.or_eq_true, beq_iff_eq] at boundary
  rcases boundary with (rfl | rfl) | rfl <;> decide

/-- The scan goes over blanks and commas. -/
theorem scan_gap {previous : Option Char} {gap : Str} (chars : ∀ x ∈ gap, isBoundary x = true)
    (notNil : gap ≠ []) : ∃ last, isBoundary last = true ∧
      authorizationSliceFrom previous (gap ++ rest) = authorizationSliceFrom (some last) rest := by
  induction gap generalizing previous with
  | nil => exact absurd rfl notNil
  | cons x gap ih =>
      obtain ⟨here, later⟩ := List.forall_mem_cons.mp chars
      rw [List.cons_append, scan_other (boundary_notMem_token here)]
      by_cases empty : gap = []
      · exact ⟨x, here, by rw [empty, List.nil_append]⟩
      · exact ih later empty

/-! ### Values -/

/-- Text that does not begin with a quote is its own value. -/
theorem tokenParameterSlice_equals {tail : Str}
    (equals : rest.dropWhile isAsciiWhitespace = '=' :: tail)
    (noQuote : (tail.dropWhile isAsciiWhitespace).head? ≠ some '"') :
    tokenParameterSlice rest =
      if ((tail.dropWhile isAsciiWhitespace).takeWhile isValueChar) = [] then none
      else some ((tail.dropWhile isAsciiWhitespace).takeWhile isValueChar,
        (tail.dropWhile isAsciiWhitespace).dropWhile isValueChar) := by
  have bare : stripPrefix ['"'] (tail.dropWhile isAsciiWhitespace) = none := by
    rw [Option.eq_none_iff_forall_ne_some]
    intro stripped found
    rw [stripPrefix_eq_some.mp found] at noQuote
    exact noQuote rfl
  simp only [tokenParameterSlice, equals, bare, Option.getD_none]

/-- A quote in front of the value is left out. -/
theorem tokenParameterSlice_quote {tail inner : Str}
    (equals : rest.dropWhile isAsciiWhitespace = '=' :: tail)
    (quote : tail.dropWhile isAsciiWhitespace = '"' :: inner) :
    tokenParameterSlice rest =
      if inner.takeWhile isValueChar = [] then none
      else some (inner.takeWhile isValueChar, inner.dropWhile isValueChar) := by
  have strip : stripPrefix ['"'] ('"' :: inner) = some inner := stripPrefix_append ['"'] inner
  simp only [tokenParameterSlice, equals, quote, strip, Option.getD_some]

theorem isValueChar_of_boundary (boundary : isBoundary c = true) : isValueChar c = false := by
  simp only [isBoundary, Bool.or_eq_true, beq_iff_eq] at boundary
  rcases boundary with (rfl | rfl) | rfl <;> decide

/-- A value that is not in quotes ends at the quote behind it. -/
theorem tokenParameterSlice_append (fresh : '"' ∉ value)
    (ends : ∀ x, after.head? = some x → isBoundary x = true) :
    tokenParameterSlice (value ++ '"' :: after) =
      (tokenParameterSlice value).map fun slice => (slice.1, slice.2 ++ '"' :: after) := by
  have quoteBlank : isAsciiWhitespace '"' = false := by decide
  have quoteValue : isValueChar '"' = false := by decide
  have blanks (text : Str) := span_append_stop quoteBlank text after
  cases equals : value.dropWhile isAsciiWhitespace with
  | nil =>
      rw [tokenParameterSlice_eq_none, tokenParameterSlice_eq_none]
      · rfl
      · simp [equals]
      · simp [(blanks value).2, equals]
  | cons x tail =>
      by_cases same : x = '='
      · subst same
        have equals' : (value ++ '"' :: after).dropWhile isAsciiWhitespace =
            '=' :: (tail ++ '"' :: after) := by
          rw [(blanks value).2, equals, List.cons_append]
        have freshTail : '"' ∉ tail.dropWhile isAsciiWhitespace := by
          intro member
          have inTail := (List.dropWhile_sublist _).subset member
          apply fresh
          exact (List.dropWhile_sublist isAsciiWhitespace).subset
            (equals ▸ List.mem_cons_of_mem '=' inTail)
        have noQuote : (tail.dropWhile isAsciiWhitespace).head? ≠ some '"' :=
          fun first => freshTail (List.mem_of_mem_head? first)
        rw [tokenParameterSlice_equals equals noQuote]
        cases inner : tail.dropWhile isAsciiWhitespace with
        | nil =>
            have none : after.takeWhile isValueChar = [] := by
              cases after with
              | nil => rfl
              | cons y after =>
                  rw [List.takeWhile_cons, isValueChar_of_boundary (ends y rfl)]
                  rfl
            have quoted : (tail ++ '"' :: after).dropWhile isAsciiWhitespace = '"' :: after := by
              rw [(blanks tail).2, inner, List.nil_append]
            rw [tokenParameterSlice_quote equals' quoted, if_pos none]
            rfl
        | cons y inner' =>
            rw [inner] at noQuote
            have tail' := (blanks tail).2
            rw [inner] at tail'
            rw [tokenParameterSlice_equals equals', tail']
            · rw [(span_append_stop quoteValue _ after).1, (span_append_stop quoteValue _ after).2]
              split <;> rfl
            · rw [tail']
              exact noQuote
      · rw [tokenParameterSlice_eq_none, tokenParameterSlice_eq_none]
        · rfl
        · simp [equals, same]
        · simp [(blanks value).2, equals, same]

/-- The scan over a value, and behind it when nothing is found in it. -/
theorem scan_value (fresh : '"' ∉ value)
    (ends : ∀ x, after.head? = some x → isBoundary x = true) :
    authorizationSliceFrom (some p) (value ++ '"' :: after) =
      ((authorizationSliceFrom (some p) value).map
        fun slice => (slice.1, slice.2 ++ '"' :: after)).or
          (authorizationSliceFrom (some '"') after) := by
  have quoteOther : '"'.toLower ∉ "token".toList := by decide
  induction value generalizing p with
  | nil => exact scan_other quoteOther
  | cons c value ih =>
      have freshValue : '"' ∉ value := fun member => fresh (List.mem_cons_of_mem _ member)
      by_cases starts : isBoundary p = true ∧
          eqIgnoreAsciiCase ((c :: value).take 5) "token".toList = true
      · have starts' := (take_tokenWord quoteOther (c :: value) after).mpr starts.2
        have long := length_of_isTokenWord starts.2
        have drop : ((c :: value) ++ '"' :: after).drop 5 =
            (c :: value).drop 5 ++ '"' :: after :=
          List.drop_append_of_le_length (by rw [List.length_take] at long; omega)
        have freshDrop : '"' ∉ (c :: value).drop 5 :=
          fun member => fresh ((List.drop_sublist _ _).subset member)
        rw [List.cons_append] at starts' drop ⊢
        rw [authorizationSliceFrom, authorizationSliceFrom, Option.all_some, starts.1, starts.2,
          starts', drop, tokenParameterSlice_append freshDrop ends, ih freshValue]
        cases tokenParameterSlice ((c :: value).drop 5) <;> rfl
      · have skip {rest : Str}
            (same : eqIgnoreAsciiCase ((c :: rest).take 5) "token".toList = true →
              eqIgnoreAsciiCase ((c :: value).take 5) "token".toList = true) :
            authorizationSliceFrom (some p) (c :: rest) =
              authorizationSliceFrom (some c) rest :=
          scan_skip fun boundary token => absurd ⟨boundary, same token⟩ starts
        have skipQuoted := @skip (value ++ '"' :: after)
          (take_tokenWord quoteOther (c :: value) after).mp
        rw [skip id, List.cons_append, skipQuoted]
        exact ih freshValue

/-- A place in a text at which the scan finds a value. -/
def FindsToken (text : Str) : Prop :=
  ∃ before b rest, text = before ++ b :: rest ∧ isBoundary b = true ∧
    eqIgnoreAsciiCase (rest.take 5) "token".toList = true ∧
    (tokenParameterSlice (rest.drop 5)).isSome = true

theorem FindsToken.cons (found : FindsToken value) : FindsToken (p :: value) := by
  obtain ⟨before, b, rest, whole, here⟩ := found
  exact ⟨p :: before, b, rest, congrArg (p :: ·) whole, here⟩

theorem sliceFrom_isSome_iff :
    (authorizationSliceFrom (some p) value).isSome = true ↔ FindsToken (p :: value) := by
  induction value generalizing p with
  | nil =>
      constructor
      · intro found
        cases found
      · rintro ⟨before, b, rest, whole, -, token, -⟩
        have long := length_of_isTokenWord token
        have length := congrArg List.length whole
        simp only [List.length_take, List.length_cons, List.length_append, List.length_nil]
          at long length
        omega
  | cons c value ih =>
      constructor
      · intro found
        rw [authorizationSliceFrom] at found
        split at found
        · next starts =>
            rw [Bool.and_eq_true] at starts
            split at found
            · next slice value =>
                exact ⟨[], p, _, rfl, starts.1, starts.2, by rw [value]; rfl⟩
            · exact (ih.mp found).cons
        · exact (ih.mp found).cons
      · rintro ⟨before, b, rest, whole, boundary, token, slice⟩
        rw [authorizationSliceFrom]
        cases before with
        | nil =>
            obtain ⟨rfl, rfl⟩ := List.cons.inj whole
            obtain ⟨found, value⟩ := Option.isSome_iff_exists.mp slice
            rw [if_pos (by rw [Option.all_some, boundary, token]; rfl), value]
            rfl
        | cons x before =>
            have later := ih.mpr ⟨before, b, rest, (List.cons.inj whole).2, boundary, token, slice⟩
            split
            · split
              · rfl
              · exact later
            · exact later

theorem tokenParameterSlice_isSome_iff (fresh : '"' ∉ value) :
    (tokenParameterSlice value).isSome = true ↔
      ∃ gap gap' c rest, value = gap ++ '=' :: (gap' ++ c :: rest) ∧
        (∀ x ∈ gap, isAsciiWhitespace x = true) ∧ (∀ x ∈ gap', isAsciiWhitespace x = true) ∧
        isValueChar c = true := by
  have blank {gap : Str} {x : Char} {rest : Str} (blanks : ∀ x ∈ gap, isAsciiWhitespace x = true)
      (stop : isAsciiWhitespace x = false) :
      (gap ++ x :: rest).dropWhile isAsciiWhitespace = x :: rest := by
    rw [(span_append_stop stop gap rest).2, List.dropWhile_eq_nil_iff.mpr blanks, List.nil_append]
  constructor
  · intro found
    cases equals : value.dropWhile isAsciiWhitespace with
    | nil =>
        rw [tokenParameterSlice_eq_none (by simp [equals])] at found
        cases found
    | cons x tail =>
        have same : x = '=' := by
          by_contra other
          rw [tokenParameterSlice_eq_none (by simp [equals, other])] at found
          cases found
        subst same
        have split := List.takeWhile_append_dropWhile (p := isAsciiWhitespace) (l := value)
        rw [equals] at split
        have split' := List.takeWhile_append_dropWhile (p := isAsciiWhitespace) (l := tail)
        have noQuote : (tail.dropWhile isAsciiWhitespace).head? ≠ some '"' := by
          intro first
          have inTail := (List.dropWhile_sublist _).subset (List.mem_of_mem_head? first)
          apply fresh
          rw [← split]
          exact List.mem_append_right _ (List.mem_cons_of_mem _ inTail)
        rw [tokenParameterSlice_equals equals noQuote] at found
        cases inner : tail.dropWhile isAsciiWhitespace with
        | nil =>
            rw [inner] at found
            cases found
        | cons c rest =>
            rw [inner] at split' found
            refine ⟨_, _, c, rest, by rw [← split, ← split'], ?_, ?_, ?_⟩
            · exact fun x member => List.mem_takeWhile_imp member
            · exact fun x member => List.mem_takeWhile_imp member
            · by_contra other
              rw [List.takeWhile_cons_of_neg other] at found
              cases found
  · rintro ⟨gap, gap', c, rest, rfl, blanks, blanks', char⟩
    have notBlank : isAsciiWhitespace c = false := by
      simp only [isValueChar, Bool.not_eq_true', Bool.or_eq_false_iff] at char
      exact char.2
    have noQuote : c ≠ '"' := by
      rintro rfl
      simp at fresh
    rw [tokenParameterSlice_equals (blank blanks (by decide)), blank blanks' notBlank,
      List.takeWhile_cons_of_pos char, if_neg (List.cons_ne_nil _ _)]
    · rfl
    · rw [blank blanks' notBlank, List.head?_cons]
      exact fun same => noQuote (Option.some.inj same)

/-- What is found is part of the text. -/
theorem tokenParameterSlice_suffix {slice : Str × Str}
    (found : tokenParameterSlice rest = some slice) : (slice.1 ++ slice.2) <:+ rest := by
  rw [tokenParameterSlice] at found
  split at found
  · next tail equals =>
      dsimp only at found
      split at found
      · cases found
      · obtain rfl := Option.some.inj found
        rw [List.takeWhile_append_dropWhile]
        have suffix : '=' :: tail <:+ rest := equals ▸ List.dropWhile_suffix _
        have blanks := List.dropWhile_suffix (l := tail) isAsciiWhitespace
        refine List.IsSuffix.trans ?_ (blanks.trans ((List.suffix_cons _ _).trans suffix))
        cases strip : stripPrefix ['"'] (tail.dropWhile isAsciiWhitespace) with
        | none => exact List.suffix_rfl
        | some inner =>
            rw [stripPrefix_eq_some.mp strip]
            exact List.suffix_append _ _
  · cases found

theorem scan_suffix {previous : Option Char} {slice : Str × Str}
    (found : authorizationSliceFrom previous value = some slice) :
    (slice.1 ++ slice.2) <:+ value := by
  induction value generalizing previous with
  | nil => cases found
  | cons c value ih =>
      rw [authorizationSliceFrom] at found
      have later (found : authorizationSliceFrom (some c) value = some slice) :=
        (ih found).trans (List.suffix_cons c value)
      split at found
      · split at found
        · next slice' parameter =>
            obtain rfl := Option.some.inj found
            exact (tokenParameterSlice_suffix parameter).trans (List.drop_suffix _ _)
        · exact later found
      · exact later found

/-! ### Parameters -/

theorem eq_space_of_isAsciiWhitespace (plain : isControl c = false)
    (blank : isAsciiWhitespace c = true) : c = ' ' := by
  simp only [isAsciiWhitespace, Bool.or_eq_true, beq_iff_eq] at blank
  rcases blank with (((rfl | rfl) | rfl) | rfl) | rfl
  · rfl
  all_goals revert plain; decide

/-- What a value may start with, in the terms of a client. -/
theorem isValueChar_iff (plain : c ≠ '"' ∧ isControl c = false) :
    isValueChar c = true ↔ c ≠ ' ' ∧ c ≠ ',' := by
  constructor
  · intro char
    constructor <;> rintro rfl <;> revert char <;> decide
  · rintro ⟨notBlank, notComma⟩
    have visible : isAsciiWhitespace c = false := by
      by_contra blank
      exact notBlank (eq_space_of_isAsciiWhitespace plain.2 (Bool.not_eq_false _ ▸ blank))
    simp [isValueChar, plain.1, notComma, visible]

/-- What the scan finds in a value, in the terms of a client. -/
theorem findsToken_iff (chars : ∀ c ∈ value, c ≠ '"' ∧ isControl c = false) :
    FindsToken ('"' :: value) ↔ MentionsToken value := by
  have fresh : '"' ∉ value := fun member => (chars _ member).1 rfl
  constructor
  · rintro ⟨before, b, rest, whole, boundary, token, slice⟩
    cases before with
    | nil =>
        obtain ⟨rfl, -⟩ := List.cons.inj whole
        exact absurd boundary (by decide)
    | cons x before =>
        obtain rfl : value = before ++ b :: rest := (List.cons.inj whole).2
        have part {y : Char} (member : y ∈ rest) : y ∈ before ++ b :: rest :=
          List.mem_append_right _ (List.mem_cons_of_mem _ member)
        have freshDrop : '"' ∉ rest.drop 5 :=
          fun member => fresh (part ((List.drop_sublist _ _).subset member))
        obtain ⟨gap, gap', c, tail, behind, blanks, blanks', char⟩ :=
          (tokenParameterSlice_isSome_iff freshDrop).mp slice
        have inRest {y : Char} (member : y ∈ gap ++ '=' :: (gap' ++ c :: tail)) : y ∈ rest :=
          (List.drop_sublist 5 _).subset (behind ▸ member)
        refine ⟨before, b, rest.take 5, gap, gap', c, tail, ?_, ?_, token, ?_, ?_, ?_⟩
        · rw [← behind, List.take_append_drop]
        · have visible := (chars b (by simp)).2
          simp only [isBoundary, Bool.or_eq_true, beq_iff_eq] at boundary
          rcases boundary with (rfl | rfl) | rfl
          · exact .inl rfl
          · revert visible
            decide
          · exact .inr rfl
        · intro y member
          refine eq_space_of_isAsciiWhitespace (chars y (part (inRest ?_))).2 (blanks y member)
          exact List.mem_append_left _ member
        · intro y member
          refine eq_space_of_isAsciiWhitespace (chars y (part (inRest ?_))).2 (blanks' y member)
          simp [member]
        · exact (isValueChar_iff (chars c (part (inRest (by simp))))).mp char
  · rintro ⟨before, b, word, gap, gap', c, rest, rfl, boundary, token, blanks, blanks', char⟩
    have long := length_of_isTokenWord token
    have blank {x : Char} (space : x = ' ') : isAsciiWhitespace x = true := by
      rw [space]
      decide
    refine ⟨'"' :: before, b, word ++ (gap ++ '=' :: (gap' ++ c :: rest)), rfl, ?_, ?_, ?_⟩
    · rcases boundary with rfl | rfl <;> decide
    · rwa [List.take_left' long]
    · rw [List.drop_left' long, tokenParameterSlice_isSome_iff]
      · refine ⟨gap, gap', c, rest, rfl, fun x member => blank (blanks x member),
          fun x member => blank (blanks' x member), ?_⟩
        exact (isValueChar_iff (chars c (by simp))).mpr char
      · intro member
        apply fresh
        simp only [List.mem_append, List.mem_cons] at member ⊢
        exact .inr (.inr (.inr member))

/-- Letters and digits neither separate parameters nor end a name. -/
theorem plain_of_isAlphanum (alphanum : c.isAlphanum = true) :
    isBoundary c = false ∧ isAsciiWhitespace c = false ∧ c ≠ '=' := by
  refine ⟨?_, ?_, ?_⟩
  · by_contra other
    simp only [Bool.not_eq_false, isBoundary, Bool.or_eq_true, beq_iff_eq] at other
    rcases other with (rfl | rfl) | rfl <;> revert alphanum <;> decide
  · by_contra blank
    simp only [Bool.not_eq_false, isAsciiWhitespace, Bool.or_eq_true, beq_iff_eq] at blank
    rcases blank with (((rfl | rfl) | rfl) | rfl) | rfl <;> revert alphanum <;> decide
  · rintro rfl
    revert alphanum
    decide

/-- The scan over the name of a parameter, which is where its value can be returned. -/
theorem scan_name (boundary : isBoundary p = true) (notNil : word ≠ [])
    (chars : ∀ x ∈ word, x.isAlphanum = true) :
    authorizationSliceFrom (some p) (word ++ '=' :: '"' :: rest) =
      if eqIgnoreAsciiCase word "token".toList = true ∧ rest.takeWhile isValueChar ≠ [] then
        some (rest.takeWhile isValueChar, rest.dropWhile isValueChar)
      else authorizationSliceFrom (some '"') rest := by
  have equalsOther : '='.toLower ∉ "token".toList := by decide
  have inside (x : Char) (member : x ∈ word) : isBoundary x = false :=
    (plain_of_isAlphanum (chars x member)).1
  obtain ⟨x, name, rfl⟩ := List.exists_cons_of_ne_nil notNil
  obtain ⟨here, later⟩ := List.forall_mem_cons.mp inside
  -- behind its first character the name is skipped, and so are the equals sign and the quote
  have skipName : authorizationSliceFrom (some x) (name ++ '=' :: '"' :: rest) =
      authorizationSliceFrom (some '"') rest := by
    have last : isBoundary ((x :: name).getLast (List.cons_ne_nil _ _)) = false :=
      inside _ (List.getLast_mem _)
    rw [scan_word here later, scan_inside last, scan_other (by decide)]
  rw [List.cons_append]
  by_cases token : eqIgnoreAsciiCase ((x :: name).take 5) "token".toList = true
  · have token' := (take_tokenWord equalsOther (x :: name) ('"' :: rest)).mpr token
    have long : 5 ≤ (x :: name).length := by
      have length := length_of_isTokenWord token
      rw [List.length_take] at length
      omega
    have drop : ((x :: name) ++ '=' :: '"' :: rest).drop 5 =
        (x :: name).drop 5 ++ '=' :: '"' :: rest := List.drop_append_of_le_length long
    rw [List.cons_append] at token' drop
    cases tail : (x :: name).drop 5 with
    | nil =>
        have whole : eqIgnoreAsciiCase (x :: name) "token".toList = true := by
          rw [List.drop_eq_nil_iff] at tail
          rwa [List.take_of_length_le tail] at token
        have slice : tokenParameterSlice ('=' :: '"' :: rest) =
            if rest.takeWhile isValueChar = [] then none
            else some (rest.takeWhile isValueChar, rest.dropWhile isValueChar) :=
          @tokenParameterSlice_quote _ ('"' :: rest) _
            (List.dropWhile_cons_of_neg (by decide)) (List.dropWhile_cons_of_neg (by decide))
        rw [authorizationSliceFrom, Option.all_some, boundary, token', drop, tail,
          List.nil_append, slice, skipName, Bool.and_self, if_pos rfl]
        by_cases empty : rest.takeWhile isValueChar = []
        · rw [if_pos empty, if_neg fun both => both.2 empty]
        · rw [if_neg empty, if_pos ⟨whole, empty⟩]
    | cons y tail' =>
        have inName : y ∈ x :: name := (List.drop_sublist 5 _).subset (tail ▸ List.mem_cons_self)
        obtain ⟨-, visible, notEquals⟩ := plain_of_isAlphanum (chars y inName)
        have notWhole : ¬eqIgnoreAsciiCase (x :: name) "token".toList = true := by
          intro whole
          rw [List.drop_of_length_le (Nat.le_of_eq (length_of_isTokenWord whole))] at tail
          cases tail
        rw [scan_skip, skipName, if_neg fun both => notWhole both.1]
        intro _ _
        rw [drop, tail]
        refine tokenParameterSlice_eq_none fun equals same => ?_
        rw [List.cons_append, List.dropWhile_cons_of_neg (by simp [visible])] at same
        exact notEquals (List.cons.inj same).1
  · have notWhole : ¬eqIgnoreAsciiCase (x :: name) "token".toList = true := by
      intro whole
      rw [List.take_of_length_le (Nat.le_of_eq (length_of_isTokenWord whole))] at token
      exact token whole
    rw [scan_skip, skipName, if_neg fun both => notWhole both.1]
    intro _ starts
    exact absurd ((take_tokenWord equalsOther (x :: name) ('"' :: rest)).mp starts) token

variable {param : AuthParam}

theorem AuthParam.text_append (param : AuthParam) (after : Str) :
    param.text ++ after =
      param.gap ++ (param.name ++ '=' :: '"' :: (param.value ++ '"' :: after)) := by
  simp [AuthParam.text]

theorem head_paramsText (params : List AuthParam) (x : Char)
    (first : (paramsText params).head? = some x) : isBoundary x = true := by
  cases params with
  | nil => cases first
  | cons param params =>
      obtain ⟨notNil, chars⟩ := param.gapChars
      obtain ⟨g, gap, whole⟩ := List.exists_cons_of_ne_nil notNil
      rw [paramsText, List.flatMap_cons, AuthParam.text, whole] at first
      obtain rfl := Option.some.inj first
      exact chars _ (whole ▸ List.mem_cons_self)

/-- The value of a token parameter in its surroundings. -/
theorem span_value (param : AuthParam) (after : Str) :
    (param.value ++ '"' :: after).takeWhile isValueChar = param.value.takeWhile isValueChar ∧
      (param.value ++ '"' :: after).dropWhile isValueChar =
        param.value.dropWhile isValueChar ++ '"' :: after :=
  span_append_stop (by decide) param.value after

/-- The token has a value that starts like one. -/
theorem takeWhile_value_ne_nil : param.value.takeWhile isValueChar ≠ [] ↔
    ∃ c rest, param.value = c :: rest ∧ c ≠ ' ' ∧ c ≠ ',' := by
  have chars := param.valueChars
  cases value : param.value with
  | nil => simp
  | cons c rest =>
      rw [List.takeWhile_cons]
      have here := isValueChar_iff (chars c (value ▸ List.mem_cons_self))
      constructor
      · intro notNil
        split at notNil
        · next char => exact ⟨c, rest, rfl, here.mp char⟩
        · exact absurd rfl notNil
      · rintro ⟨c', rest', same, plain⟩
        obtain ⟨rfl, rfl⟩ := List.cons.inj same
        rw [if_pos (here.mpr plain)]
        exact List.cons_ne_nil _ _

/-- The scan over a parameter, up to its value. -/
theorem scan_param (previous : Option Char) (param : AuthParam) (behind : List AuthParam) :
    authorizationSliceFrom previous (paramsText (param :: behind)) =
      if eqIgnoreAsciiCase param.name "token".toList = true ∧
          param.value.takeWhile isValueChar ≠ [] then
        some (param.value.takeWhile isValueChar,
          param.value.dropWhile isValueChar ++ '"' :: paramsText behind)
      else ((authorizationSliceFrom (some '"') param.value).map
        fun slice => (slice.1, slice.2 ++ '"' :: paramsText behind)).or
          (authorizationSliceFrom (some '"') (paramsText behind)) := by
  have fresh : '"' ∉ param.value := fun member => (param.valueChars _ member).1 rfl
  obtain ⟨last, boundary, skip⟩ :=
    @scan_gap (param.name ++ '=' :: '"' :: (param.value ++ '"' :: paramsText behind)) previous _
      param.gapChars.2 param.gapChars.1
  obtain ⟨inValue, behindValue⟩ := span_value param (paramsText behind)
  rw [paramsText, List.flatMap_cons, ← paramsText, param.text_append, skip,
    scan_name boundary param.nameChars.1 param.nameChars.2, inValue, behindValue,
    scan_value fresh (head_paramsText behind)]

/-- A parameter at which the scan ends, and the slice it ends with. -/
theorem scan_ends (previous : Option Char) (ends : param.Ends) (behind : List AuthParam) :
    ∃ slice left right,
      authorizationSliceFrom previous (paramsText (param :: behind)) = some slice ∧
      param.value = left ++ slice.1 ++ right ∧ slice.2 = right ++ '"' :: paramsText behind ∧
      (param.IsToken → PlainToken param.value → slice.1 = param.value) := by
  rw [scan_param]
  by_cases own : eqIgnoreAsciiCase param.name "token".toList = true ∧
      param.value.takeWhile isValueChar ≠ []
  · rw [if_pos own]
    refine ⟨_, [], param.value.dropWhile isValueChar, rfl, ?_, rfl, fun _ plain => ?_⟩
    · rw [List.nil_append, List.takeWhile_append_dropWhile]
    · refine List.takeWhile_eq_self_iff.mpr fun c member => ?_
      rw [isValueChar_iff (param.valueChars c member)]
      refine ⟨?_, (plain.2 c member).2⟩
      rintro rfl
      exact absurd (plain.2 _ member).1 (by decide)
  · have mentions : MentionsToken param.value := by
      rcases ends with ⟨token, starts⟩ | mentions
      · exact absurd ⟨token, takeWhile_value_ne_nil.mpr starts⟩ own
      · exact mentions
    rw [← findsToken_iff param.valueChars, ← sliceFrom_isSome_iff] at mentions
    obtain ⟨found, scan⟩ := Option.isSome_iff_exists.mp mentions
    obtain ⟨left, whole⟩ := scan_suffix scan
    rw [if_neg own, scan]
    refine ⟨_, left, found.2, rfl, ?_, rfl, fun token plain => ?_⟩
    · rw [List.append_assoc, whole]
    · obtain ⟨c, rest, value⟩ := List.exists_cons_of_ne_nil plain.1
      have here := plain.2 c (value ▸ List.mem_cons_self)
      refine absurd ⟨token, takeWhile_value_ne_nil.mpr ⟨c, rest, value, ?_, here.2⟩⟩ own
      rintro rfl
      exact absurd here.1 (by decide)

/-- The scan goes over every other parameter. -/
theorem scan_passes (previous : Option Char) (passes : ¬param.Ends) (behind : List AuthParam) :
    authorizationSliceFrom previous (paramsText (param :: behind)) =
      authorizationSliceFrom (some '"') (paramsText behind) := by
  rw [AuthParam.Ends, not_or] at passes
  have nothing : authorizationSliceFrom (some '"') param.value = none := by
    rw [← Option.not_isSome_iff_eq_none, sliceFrom_isSome_iff, findsToken_iff param.valueChars]
    exact passes.2
  rw [scan_param, if_neg, nothing]
  · rfl
  · rintro ⟨token, starts⟩
    exact passes.1 ⟨token, takeWhile_value_ne_nil.mp starts⟩

/-- The scan over a list of parameters is that from the first one at which it ends. -/
theorem scan_front (previous : Option Char) {front : List AuthParam}
    (passes : ∀ other ∈ front, ¬other.Ends) (behind : List AuthParam) :
    ∃ previous', authorizationSliceFrom previous (paramsText (front ++ behind)) =
      authorizationSliceFrom previous' (paramsText behind) := by
  induction front generalizing previous with
  | nil => exact ⟨previous, rfl⟩
  | cons param front ih =>
      obtain ⟨here, later⟩ := List.forall_mem_cons.mp passes
      rw [List.cons_append, scan_passes previous here]
      exact ih (some '"') later

theorem dropWhile_paramsText (params : List AuthParam) (tail : Str) :
    (paramsText params).dropWhile isAsciiWhitespace ≠ '=' :: tail := by
  cases params with
  | nil => exact List.cons_ne_nil _ _ ∘ Eq.symm
  | cons param params =>
      obtain ⟨n, name, whole⟩ := List.exists_cons_of_ne_nil param.nameChars.1
      obtain ⟨-, visible, notEquals⟩ :=
        plain_of_isAlphanum (param.nameChars.2 n (whole ▸ List.mem_cons_self))
      rw [paramsText, List.flatMap_cons, param.text_append, whole, List.cons_append,
        (span_append_stop visible param.gap _).2]
      cases gap : param.gap.dropWhile isAsciiWhitespace with
      | nil => exact fun same => notEquals (List.cons.inj same).1
      | cons g gap' =>
          have member : g ∈ param.gap :=
            (List.dropWhile_sublist isAsciiWhitespace).subset (gap ▸ List.mem_cons_self)
          intro same
          rw [(List.cons.inj same).1] at member
          exact absurd (param.gapChars.2 _ member) (by decide)

/-- The scan goes over the scheme. -/
theorem scan_scheme (header : AuthHeader) :
    ∃ previous, authorizationSliceFrom none header.text =
      authorizationSliceFrom previous (paramsText header.params) := by
  obtain ⟨notNil, chars⟩ := header.schemeChars
  have inside (x : Char) (member : x ∈ header.scheme) : isBoundary x = false := by
    obtain ⟨visible, notComma, -⟩ := chars x member
    by_contra other
    simp only [Bool.not_eq_false, isBoundary, Bool.or_eq_true, beq_iff_eq] at other
    rcases other with (rfl | rfl) | rfl
    · exact absurd visible (by decide)
    · exact absurd visible (by decide)
    · exact notComma rfl
  obtain ⟨x, word, whole⟩ := List.exists_cons_of_ne_nil notNil
  rw [AuthHeader.text]
  rw [whole] at chars inside ⊢
  obtain ⟨here, later⟩ := List.forall_mem_cons.mp inside
  rw [List.cons_append, scan_skip, scan_word here later]
  · exact ⟨_, rfl⟩
  · -- a scheme that begins with `token` is not followed by an equals sign
    intro _ token
    rw [← List.cons_append] at token ⊢
    have token' : eqIgnoreAsciiCase ((x :: word).take 5) "token".toList = true := by
      cases behind : paramsText header.params with
      | nil => rwa [behind, List.append_nil] at token
      | cons g gap =>
          have boundary := head_paramsText header.params g (by rw [behind, List.head?_cons])
          rwa [behind, take_tokenWord (boundary_notMem_token boundary)] at token
    have long : 5 ≤ (x :: word).length := by
      have length := length_of_isTokenWord token'
      rw [List.length_take] at length
      omega
    rw [List.drop_append_of_le_length long]
    refine tokenParameterSlice_eq_none fun tail => ?_
    cases drop : (x :: word).drop 5 with
    | nil => exact dropWhile_paramsText header.params tail
    | cons y rest =>
        obtain ⟨visible, -, notEquals⟩ :=
          chars y ((List.drop_sublist 5 _).subset (drop ▸ List.mem_cons_self))
        rw [List.cons_append, List.dropWhile_cons_of_neg (by simp [visible])]
        exact fun same => notEquals (List.cons.inj same).1

end Scan

/-! ## Which headers are read -/

/-- The first element with a property. -/
theorem exists_first {α : Type*} (holds : α → Prop) (xs : List α) :
    (∀ x ∈ xs, ¬holds x) ∨ ∃ front x behind, xs = front ++ x :: behind ∧
      (∀ y ∈ front, ¬holds y) ∧ holds x := by
  induction xs with
  | nil => exact .inl (by simp)
  | cons x xs ih =>
      by_cases here : holds x
      · exact .inr ⟨[], x, xs, rfl, by simp, here⟩
      · rcases ih with none | ⟨front, y, behind, rfl, passes, found⟩
        · exact .inl (List.forall_mem_cons.mpr ⟨here, none⟩)
        · exact .inr ⟨x :: front, y, behind, rfl, List.forall_mem_cons.mpr ⟨here, passes⟩, found⟩

/-- Two places in a list, one of which is not in front of the other. -/
theorem eq_or_mem_front {α : Type*} {x y : α} {front front' behind behind' : List α}
    (same : front ++ x :: behind = front' ++ y :: behind') (fresh : y ∉ front) :
    x = y ∨ x ∈ front' := by
  rcases List.append_eq_append_iff.mp same with ⟨between, rfl, rest⟩ | ⟨between, rfl, rest⟩
  · cases between with
    | nil => exact .inl (List.cons.inj rest).1
    | cons z between =>
        rw [(List.cons.inj rest).1]
        exact .inr (List.mem_append_right _ List.mem_cons_self)
  · cases between with
    | nil => exact .inl (List.cons.inj rest).1.symm
    | cons z between =>
        rw [(List.cons.inj rest).1] at fresh
        exact absurd (List.mem_append_right _ List.mem_cons_self) fresh

theorem count_paramsText (params : List AuthParam) :
    (paramsText params).count '"' = 2 * params.length := by
  induction params with
  | nil => rfl
  | cons param params ih =>
      have gap : '"' ∉ param.gap := fun member => absurd (param.gapChars.2 _ member) (by decide)
      have name : '"' ∉ param.name :=
        fun member => absurd (param.nameChars.2 _ member) (by decide)
      have value : '"' ∉ param.value := fun member => (param.valueChars _ member).1 rfl
      rw [paramsText, List.flatMap_cons, ← paramsText, param.text_append]
      simp only [List.count_append, List.count_cons, List.count_eq_zero_of_not_mem gap,
        List.count_eq_zero_of_not_mem name, List.count_eq_zero_of_not_mem value, ih,
        List.length_cons]
      simp
      omega

/-- A slice is taken from one parameter: the quotes behind it tell which. -/
theorem TakenFrom.unique {params : List AuthParam} {param other : AuthParam} {slice : Str × Str}
    (taken : TakenFrom params param slice) (taken' : TakenFrom params other slice) :
    param = other := by
  have quotes {param : AuthParam} {left right : Str} {behind : List AuthParam}
      (value : param.value = left ++ slice.1 ++ right)
      (rest : slice.2 = right ++ '"' :: paramsText behind) :
      slice.2.count '"' = 2 * behind.length + 1 := by
    have fresh : '"' ∉ right := by
      intro member
      refine (param.valueChars '"' ?_).1 rfl
      rw [value]
      exact List.mem_append_right _ member
    rw [rest, List.count_append, List.count_cons_self, List.count_eq_zero_of_not_mem fresh,
      count_paramsText, Nat.zero_add]
  obtain ⟨front, behind, left, right, rfl, value, rest⟩ := taken
  obtain ⟨front', behind', left', right', whole, value', rest'⟩ := taken'
  have count := (quotes value rest).symm.trans (quotes value' rest')
  have length : (param :: behind).length = (other :: behind').length := by
    rw [List.length_cons, List.length_cons]
    omega
  exact (List.cons.inj (List.append_inj' whole length).2).1

/-- What the scan does to a header. -/
theorem scan_header (header : AuthHeader) :
    ((∀ param ∈ header.params, ¬param.Ends) ∧ authorizationSliceFrom none header.text = none) ∨
    ∃ front param behind slice, header.params = front ++ param :: behind ∧
      (∀ other ∈ front, ¬other.Ends) ∧ param.Ends ∧
      authorizationSliceFrom none header.text = some slice ∧
      TakenFrom header.params param slice ∧
      (param.IsToken → PlainToken param.value → slice.1 = param.value) := by
  obtain ⟨previous, skip⟩ := scan_scheme header
  rw [skip]
  rcases exists_first AuthParam.Ends header.params with
    none | ⟨front, param, behind, whole, passes, ends⟩
  · obtain ⟨previous', scan⟩ := scan_front previous none []
    rw [List.append_nil] at scan
    exact .inl ⟨none, scan⟩
  · obtain ⟨previous', scan⟩ := scan_front previous passes (param :: behind)
    obtain ⟨slice, left, right, found, value, rest, plain⟩ := scan_ends previous' ends behind
    refine .inr ⟨front, param, behind, slice, whole, passes, ends, ?_, ?_, plain⟩
    · rw [whole, scan, found]
    · exact ⟨front, behind, left, right, whole, value, rest⟩

/-- A plain token ends the scan. -/
theorem PlainToken.ends {param : AuthParam} (token : param.IsToken)
    (plain : PlainToken param.value) : param.Ends := by
  obtain ⟨c, rest, value⟩ := List.exists_cons_of_ne_nil plain.1
  obtain ⟨visible, notComma⟩ := plain.2 c (value ▸ List.mem_cons_self)
  refine .inl ⟨token, c, rest, value, ?_, notComma⟩
  rintro rfl
  exact absurd visible (by decide)

/-- The scan reads the token of exactly those headers in which no other parameter mentions one,
unless the scan has ended before. -/
theorem reads_token_iff (header : AuthHeader) : ReadsToken header ↔ Undisturbed header.params := by
  rcases scan_header header with
    ⟨passes, none⟩ | ⟨front, param, behind, slice, whole, passes, ends, scan, taken, plain⟩
  · have undisturbed : Undisturbed header.params := by
      intro front param behind whole _ mentions
      exact absurd (.inr mentions) (passes param (by rw [whole]; simp))
    refine iff_of_true ⟨?_, fun _ => ?_, fun slice found => ?_⟩ undisturbed
    · intro front param behind whole _ token plain
      exact absurd (plain.ends token) (passes param (by rw [whole]; simp))
    · rw [authorizationToken_eq, none]
      rfl
    · rw [none] at found
      cases found
  · constructor
    · intro reads front' other behind' whole' notToken mentions
      obtain ⟨own, token, taken'⟩ := reads.own slice scan
      obtain rfl := taken.unique taken'
      have fresh : other ∉ front := fun member => passes other member (.inr mentions)
      rcases eq_or_mem_front (whole.symm.trans whole') fresh with rfl | earlier
      · exact absurd token notToken
      · exact ⟨param, earlier, token, ends⟩
    · intro undisturbed
      have token : param.IsToken := by
        by_contra notToken
        have mentions := ends.resolve_left fun token => notToken token.1
        obtain ⟨earlier, member, -, ends'⟩ := undisturbed front param behind whole notToken mentions
        exact passes earlier member ends'
      refine ⟨?_, fun none => ?_, fun slice' found => ?_⟩
      · intro front' other behind' whole' noToken token' plain'
        have fresh : other ∉ front := fun member => passes other member (plain'.ends token')
        rcases eq_or_mem_front (whole.symm.trans whole') fresh with rfl | earlier
        · rw [authorizationToken_eq, scan, Option.map_some, plain token plain']
        · exact absurd token (noToken param earlier)
      · exact absurd token (none param (by rw [whole]; simp))
      · obtain rfl := Option.some.inj (scan.symm.trans found)
        exact ⟨param, token, taken⟩

/-- A parameter of a header. -/
def deviceParam : AuthParam where
  gap := " ".toList
  name := "Device".toList
  value := "TV token=evil".toList
  gapChars := by decide
  nameChars := by decide
  valueChars := by decide

def abcParam : AuthParam where
  gap := ", ".toList
  name := "Token".toList
  value := "abc".toList
  gapChars := by decide
  nameChars := by decide
  valueChars := by decide

/-- `MediaBrowser Device="TV token=evil", Token="abc"` -/
def disturbedHeader : AuthHeader where
  scheme := "MediaBrowser".toList
  params := [deviceParam, abcParam]
  schemeChars := by decide

/-- The name of a device passes for a token. -/
theorem device_for_token :
    authorizationToken disturbedHeader.text = some "evil".toList ∧ ¬ReadsToken disturbedHeader := by
  have read : authorizationToken disturbedHeader.text = some "evil".toList := by decide
  refine ⟨read, fun reads => ?_⟩
  have token := reads.token [deviceParam] abcParam [] rfl
    (by unfold AuthParam.IsToken; decide) (by unfold AuthParam.IsToken; decide)
    ⟨by decide, by decide⟩
  rw [read] at token
  exact absurd token (by decide)

end Proxemby
