import Proxemby.Rewrite.Calls

/-!
# The scanner with its calls

The scanner once more, which notes each call and each turn of a loop where it begins.
Without its notes it is the scanner, and all that it notes are calls of the scan.
-/

namespace Proxemby

open Utf8

/-- A scanning step with the calls that it has made. -/
structure Traced (α : Type) where
  calls : List Call
  result : Scan α

namespace Traced

section Steps

variable {α β : Type}

/-- Go on with a result. -/
def bind (step : Traced α) (next : α → Traced β) : Traced β :=
  match step.result with
  | .ok value => ⟨step.calls ++ (next value).calls, (next value).result⟩
  | .none => ⟨step.calls, .none⟩
  | .panic => ⟨step.calls, .panic⟩
  | .fuel => ⟨step.calls, .fuel⟩

instance : Monad Traced where
  pure value := ⟨[], .ok value⟩
  bind := bind

/-- A step that makes no calls. -/
def silent (result : Scan α) : Traced α := ⟨[], result⟩

/-- A step that is a call. -/
def enter (call : Call) (body : Traced α) : Traced α := ⟨call :: body.calls, body.result⟩

@[simp] theorem result_pure (value : α) : (pure value : Traced α).result = .ok value := rfl

@[simp] theorem result_silent (result : Scan α) : (silent result).result = result := rfl

@[simp] theorem result_enter (call : Call) (body : Traced α) :
    (enter call body).result = body.result := rfl

@[simp] theorem result_bind (step : Traced α) (next : α → Traced β) :
    (step >>= next).result = step.result >>= fun value => (next value).result := by
  cases same : step.result <;> simp [Bind.bind, bind, Scan.bind, same]

@[simp] theorem result_ite {p : Prop} [Decidable p] (left right : Traced α) :
    (if p then left else right).result = if p then left.result else right.result :=
  apply_ite Traced.result p left right

end Steps

/-! ## The scanner -/

/-- The loop of `skip_ws`. -/
def skipWsFrom : Bytes → Scanner → Traced Scanner
  | [], s => enter (.skipWs s) (pure s)
  | b :: rest, s =>
      enter (.skipWs s)
        (if b = 0x20 || b = 0x09 || b = 0x0A || b = 0x0D then skipWsFrom rest (s.advance 1)
        else pure s)

def skipWs (s : Scanner) : Traced Scanner := skipWsFrom (s.bytes.drop s.pos) s

/-- The loop of `number` over digits. -/
def digitsFrom : Bytes → Scanner → Traced Scanner
  | [], s => enter (.digits s) (pure s)
  | b :: rest, s =>
      enter (.digits s)
        (if 0x30 ≤ b && b ≤ 0x39 then digitsFrom rest (s.advance 1) else pure s)

def digits (s : Scanner) : Traced Scanner := digitsFrom (s.bytes.drop s.pos) s

def someDigits (s : Scanner) : Traced Scanner := do
  let s' ← digits s
  if s.pos < s'.pos then return s' else silent .none

def intPart (s : Scanner) : Traced Scanner :=
  match s.byte? with
  | some b =>
      if b = 0x30 then pure (s.advance 1)
      else if 0x31 ≤ b && b ≤ 0x39 then digits s
      else silent .none
  | none => silent .none

def fracPart (s : Scanner) : Traced Scanner :=
  if s.byte? = some 0x2E then someDigits (s.advance 1) else pure s

def expPart (s : Scanner) : Traced Scanner :=
  if s.byte? = some 0x65 ∨ s.byte? = some 0x45 then
    let s := s.advance 1
    let s := if s.byte? = some 0x2B ∨ s.byte? = some 0x2D then s.advance 1 else s
    someDigits s
  else pure s

def number (s : Scanner) : Traced Scanner :=
  enter (.number s) do
    let start := s.pos
    let s := if s.byte? = some 0x2D then s.advance 1 else s
    let s ← intPart s
    let s ← fracPart s
    let s ← expPart s
    if start < s.pos then return s else silent .none

/-- The fast loop of `string`. -/
def plainFrom : Bytes → Scanner → Traced (Bool × Nat)
  | [], s => enter (.plain s) (silent .none)
  | b :: rest, s =>
      enter (.plain s)
        (if b = 0x22 then pure (true, s.pos)
        else if b = 0x5C then pure (false, s.pos)
        else if b < 0x20 then silent .none
        else plainFrom rest (s.advance 1))

/-- The slow loop of `string`. -/
def escaped : Nat → Str → Scanner → Traced (Str × Scanner)
  | 0, _, _ => silent .fuel
  | fuel + 1, out, s =>
      enter (.escaped s)
        (match s.byte? with
        | none => silent .none
        | some b =>
            if b = 0x22 then pure (out, s.advance 1)
            else if b = 0x5C then do
              let (c, s) ← silent (s.advance 1).escape
              escaped fuel (out ++ [c]) (s.advance 1)
            else if b < 0x20 then silent .none
            else do
              let rest ← silent (Scan.expect (sliceFrom s.text s.pos))
              let c ← silent (Scan.ofOption rest.head?)
              escaped fuel (out ++ [c]) (s.advance c.utf8Size))

def string (s : Scanner) : Traced (Str × Scanner) :=
  enter (.string s) do
    let s := s.advance 1
    let start := s.pos
    let (closed, pos) ← plainFrom (s.bytes.drop s.pos) s
    let out ← silent (Scan.expect (slice s.text start pos))
    let s := { s with pos }
    if closed then return (out, s.advance 1)
    else escaped (s.bytes.length - s.pos + 1) out s

def stringValue (s : Scanner) : Traced Scanner := do
  let start := s.pos
  let (value, s) ← string s
  if Scanner.isAbsolute value then
    return { s with found := s.found ++ [⟨start, s.pos, s.path, value⟩] }
  else return s

mutual
def value : Nat → Scanner → Traced Scanner
  | 0, _ => silent .fuel
  | fuel + 1, s =>
      enter (.value s)
        (if maxDepth < s.stack.length then silent .none
        else do
          let s ← skipWs s
          match s.byte? with
          | none => silent .none
          | some b =>
              if b = 0x7B then object fuel s
              else if b = 0x5B then array fuel s
              else if b = 0x22 then stringValue s
              else if b = 0x74 then silent (s.literal (encode "true".toList))
              else if b = 0x66 then silent (s.literal (encode "false".toList))
              else if b = 0x6E then silent (s.literal (encode "null".toList))
              else if b = 0x2D || (0x30 ≤ b && b ≤ 0x39) then number s
              else silent .none)

def object : Nat → Scanner → Traced Scanner
  | 0, _ => silent .fuel
  | fuel + 1, s =>
      enter (.object s) do
        let s ← skipWs (s.advance 1)
        if s.byte? = some 0x7D then return s.advance 1 else members fuel s

/-- The loop of `object`. -/
def members : Nat → Scanner → Traced Scanner
  | 0, _ => silent .fuel
  | fuel + 1, s =>
      enter (.members s) do
        let s ← skipWs s
        if s.byte? ≠ some 0x22 then silent .none
        else
          let (key, s) ← string s
          let s ← skipWs s
          if s.byte? ≠ some 0x3A then silent .none
          else
            let s ← value fuel ((s.advance 1).push (.key key))
            let s ← skipWs s.pop
            match s.byte? with
            | some b =>
                if b = 0x2C then members fuel (s.advance 1)
                else if b = 0x7D then return s.advance 1
                else silent .none
            | none => silent .none

def array : Nat → Scanner → Traced Scanner
  | 0, _ => silent .fuel
  | fuel + 1, s =>
      enter (.array s) do
        let s ← skipWs (s.advance 1)
        if s.byte? = some 0x5D then return s.advance 1 else elements fuel 0 s

/-- The loop of `array`. -/
def elements : Nat → Nat → Scanner → Traced Scanner
  | 0, _, _ => silent .fuel
  | fuel + 1, index, s =>
      enter (.elements index s) do
        let s ← value fuel (s.push (.index index))
        let s ← skipWs s.pop
        match s.byte? with
        | some b =>
            if b = 0x2C then elements fuel (index + 1) (s.advance 1)
            else if b = 0x5D then return s.advance 1
            else silent .none
        | none => silent .none
end

def run (text : Str) : Traced (List FoundString) :=
  enter (.scan (Scanner.start text)) do
    let s ← value (Scanner.enoughFuel text) (Scanner.start text)
    let s ← skipWs s
    if s.pos ≠ s.bytes.length then silent .none else return s.found

/-! ## Without the notes -/

@[simp] theorem result_skipWs (s : Scanner) : (skipWs s).result = .ok s.skipWs := by
  have loop (rest : Bytes) (s : Scanner) :
      (skipWsFrom rest s).result = .ok { s with pos := Proxemby.skipWsFrom rest s.pos } := by
    induction rest generalizing s with
    | nil => rfl
    | cons b rest ih =>
        rw [skipWsFrom, result_enter, result_ite, ih, Proxemby.skipWsFrom]
        split <;> rfl
  exact loop (s.bytes.drop s.pos) s

@[simp] theorem result_digits (s : Scanner) : (digits s).result = .ok s.digits.2 := by
  have loop (rest : Bytes) (s : Scanner) :
      (digitsFrom rest s).result = .ok { s with pos := Proxemby.digitsFrom rest s.pos } := by
    induction rest generalizing s with
    | nil => rfl
    | cons b rest ih =>
        rw [digitsFrom, result_enter, result_ite, ih, Proxemby.digitsFrom]
        split <;> rfl
  exact loop (s.bytes.drop s.pos) s

@[simp] theorem result_someDigits (s : Scanner) : (someDigits s).result = s.someDigits := by
  simp [someDigits, Scanner.someDigits, Scanner.digits]

@[simp] theorem result_intPart (s : Scanner) : (intPart s).result = s.intPart := by
  rw [intPart, Scanner.intPart]
  cases s.byte? <;> simp

@[simp] theorem result_fracPart (s : Scanner) : (fracPart s).result = s.fracPart := by
  simp [fracPart, Scanner.fracPart]

@[simp] theorem result_expPart (s : Scanner) : (expPart s).result = s.expPart := by
  simp [expPart, Scanner.expPart]

@[simp] theorem result_number (s : Scanner) : (number s).result = s.number := by
  simp [number, Scanner.number]

@[simp] theorem result_plainFrom (rest : Bytes) (s : Scanner) :
    (plainFrom rest s).result = Scan.ofOption (Proxemby.plainFrom rest s.pos) := by
  induction rest generalizing s with
  | nil => rfl
  | cons b rest ih =>
      simp only [plainFrom, result_enter, result_ite, ih, Proxemby.plainFrom]
      split_ifs <;> rfl

@[simp] theorem result_escaped (fuel : Nat) (out : Str) (s : Scanner) :
    (escaped fuel out s).result = Scanner.escaped fuel out s := by
  induction fuel generalizing out s with
  | zero => rfl
  | succ fuel ih =>
      rw [escaped, Scanner.escaped, result_enter]
      cases s.byte? <;> simp [ih]

@[simp] theorem result_string (s : Scanner) : (string s).result = s.string := by
  simp [string, Scanner.string]

@[simp] theorem result_stringValue (s : Scanner) : (stringValue s).result = s.stringValue := by
  simp [stringValue, Scanner.stringValue]

/-- The recursive functions, by the fuel. -/
theorem result_functions (fuel : Nat) :
    (∀ s, (value fuel s).result = Scanner.value fuel s) ∧
      (∀ s, (object fuel s).result = Scanner.object fuel s) ∧
      (∀ s, (members fuel s).result = Scanner.members fuel s) ∧
      (∀ s, (array fuel s).result = Scanner.array fuel s) ∧
      ∀ index s, (elements fuel index s).result = Scanner.elements fuel index s := by
  induction fuel with
  | zero => exact ⟨fun _ => rfl, fun _ => rfl, fun _ => rfl, fun _ => rfl, fun _ _ => rfl⟩
  | succ fuel ih =>
      obtain ⟨values, objects, memberss, arrays, elementss⟩ := ih
      refine ⟨fun s => ?_, fun s => ?_, fun s => ?_, fun s => ?_, fun index s => ?_⟩
      · simp only [value, Scanner.value, result_enter, result_ite, result_bind, result_skipWs,
          result_silent, Scan.ok_bind]
        cases s.skipWs.byte? <;> simp [objects, arrays]
      · simp [object, Scanner.object, memberss]
      · simp only [members, Scanner.members, result_enter, result_bind, result_skipWs,
          Scan.ok_bind, result_ite, result_silent, result_string, values]
        split
        · rfl
        · refine congrArg _ (funext fun named => ?_)
          split
          · rfl
          · refine congrArg _ (funext fun s => ?_)
            cases s.pop.skipWs.byte? <;> simp [memberss]
      · simp [array, Scanner.array, elementss]
      · simp only [elements, Scanner.elements, result_enter, result_bind, values, result_skipWs,
          Scan.ok_bind]
        refine congrArg _ (funext fun s => ?_)
        cases s.pop.skipWs.byte? <;> simp [elementss]

/-- Without its notes, the scan is the scan. -/
theorem result_run (text : Str) : (run text).result = Scanner.run text := by
  simp [run, Scanner.run, result_functions]

/-! ## The notes -/

section Under

variable {α β : Type} {call next : Call}

/-- All that a step notes is a call, or follows from it. -/
def Under (call : Call) (step : Traced α) : Prop :=
  ∀ made ∈ step.calls, Relation.ReflTransGen Makes call made

theorem Under.pure (value : α) : (Pure.pure value : Traced α).Under call := nofun

theorem Under.silent (result : Scan α) : (Traced.silent result).Under call := nofun

theorem Under.enter {body : Traced α} (inner : body.Under call) :
    (Traced.enter call body).Under call := by
  intro made member
  obtain rfl | member := List.mem_cons.mp member
  · exact .refl
  · exact inner made member

theorem Under.made {step : Traced α} (makes : Makes call next) (under : step.Under next) :
    step.Under call := fun made member => .head makes (under made member)

theorem Under.bind {step : Traced α} {rest : α → Traced β} (first : step.Under call)
    (later : ∀ value, step.result = .ok value → (rest value).Under call) :
    (step >>= rest).Under call := by
  intro made member
  change made ∈ (Traced.bind step rest).calls at member
  rw [Traced.bind] at member
  cases result : step.result with
  | ok value =>
      rw [result] at member
      exact (List.mem_append.mp member).elim (first made) (later value result made)
  | none | panic | fuel =>
      rw [result] at member
      exact first made member

theorem Under.ite {p : Prop} [Decidable p] {left right : Traced α} (yes : p → left.Under call)
    (no : ¬p → right.Under call) : (if p then left else right).Under call := by
  split
  · exact yes ‹_›
  · exact no ‹_›

end Under

/-- What is at the position of a loop over the octets behind it. -/
theorem byte?_of_drop {s : Scanner} {b : UInt8} {rest : Bytes}
    (here : s.bytes.drop s.pos = b :: rest) :
    s.byte? = some b ∧ (s.advance 1).bytes.drop (s.advance 1).pos = rest := by
  constructor
  · rw [Scanner.byte?, ← List.head?_drop, here, List.head?_cons]
  · change s.bytes.drop (s.pos + 1) = rest
    rw [← List.tail_drop, here, List.tail_cons]

theorem skipWs_under (s : Scanner) : (skipWs s).Under (.skipWs s) := by
  have loop (rest : Bytes) (s : Scanner) (here : s.bytes.drop s.pos = rest) :
      (skipWsFrom rest s).Under (.skipWs s) := by
    induction rest generalizing s with
    | nil => exact .enter (.pure s)
    | cons b rest ih =>
        obtain ⟨next, behind⟩ := byte?_of_drop here
        refine .enter (.ite (fun ws => .made (.skipWs_skipWs next ?_) (ih _ behind))
          fun _ => .pure s)
        simpa [or_assoc] using ws
  exact loop _ s rfl

theorem digits_under (s : Scanner) : (digits s).Under (.digits s) := by
  have loop (rest : Bytes) (s : Scanner) (here : s.bytes.drop s.pos = rest) :
      (digitsFrom rest s).Under (.digits s) := by
    induction rest generalizing s with
    | nil => exact .enter (.pure s)
    | cons b rest ih =>
        obtain ⟨next, behind⟩ := byte?_of_drop here
        refine .enter (.ite (fun digit => .made (.digits_digits next ?_) (ih _ behind))
          fun _ => .pure s)
        simpa using digit
  exact loop _ s rfl

theorem plainFrom_under (s : Scanner) : (plainFrom (s.bytes.drop s.pos) s).Under (.plain s) := by
  have loop (rest : Bytes) (s : Scanner) (here : s.bytes.drop s.pos = rest) :
      (plainFrom rest s).Under (.plain s) := by
    induction rest generalizing s with
    | nil => exact .enter (.silent _)
    | cons b rest ih =>
        obtain ⟨next, behind⟩ := byte?_of_drop here
        refine .enter (.ite (fun _ => .pure _) fun quote => .ite (fun _ => .pure _) fun backslash =>
          .ite (fun _ => .silent _) fun control => ?_)
        exact .made (.plain_plain next ⟨quote, backslash, control⟩) (ih _ behind)
  exact loop _ s rfl

theorem number_under (s : Scanner) : (number s).Under (.number s) := by
  refine .enter ?_
  generalize signed : (if s.byte? = some 0x2D then s.advance 1 else s) = s₁
  refine .bind ?_ fun s₂ int => .bind ?_ fun s₃ frac => .bind ?_ fun s₄ _ =>
    .ite (fun _ => .pure _) fun _ => .silent _
  · rw [intPart]
    split
    · exact .ite (fun _ => .pure _) fun _ =>
        .ite (fun _ => .made (.number_int signed.symm) (digits_under s₁)) fun _ => .silent _
    · exact .silent _
  · rw [result_intPart] at int
    refine .ite (fun point => .bind (.made (.number_frac signed.symm int point) (digits_under _))
      fun _ _ => .ite (fun _ => .pure _) fun _ => .silent _) fun _ => .pure _
  · rw [result_intPart] at int
    rw [result_fracPart] at frac
    refine .ite (fun mark => .bind
      (.made (.number_exp signed.symm int frac mark rfl) (digits_under _))
      fun _ _ => .ite (fun _ => .pure _) fun _ => .silent _) fun _ => .pure _

theorem escaped_under (fuel : Nat) (out : Str) (s : Scanner) :
    (escaped fuel out s).Under (.escaped s) := by
  induction fuel generalizing out s with
  | zero => exact .silent _
  | succ fuel ih =>
      refine .enter ?_
      cases next : s.byte? with
      | none => exact .silent _
      | some b =>
          refine .ite (fun _ => .pure _) fun quote => .ite (fun backslash => ?_) fun other =>
            .ite (fun _ => .silent _) fun control => ?_
          · subst backslash
            exact .bind (.silent _) fun read escape =>
              .made (.escaped_escape next escape) (ih _ _)
          · refine .bind (.silent _) fun rest sliced => .bind (.silent _) fun c first => ?_
            rw [result_silent, Scan.expect_eq_ok] at sliced
            rw [result_silent, Scan.ofOption_eq_ok, List.head?_eq_some_iff] at first
            obtain ⟨tail, rfl⟩ := first
            exact .made (.escaped_char next ⟨quote, other, control⟩ sliced) (ih _ _)

theorem string_under (s : Scanner) : (string s).Under (.string s) := by
  refine .enter (.bind (.made .string_plain (plainFrom_under _)) fun stop stopped =>
    .bind (.silent _) fun out _ => .ite (fun _ => .pure _) fun opened => ?_)
  rw [result_plainFrom, Scan.ofOption_eq_ok] at stopped
  obtain ⟨closed, pos⟩ := stop
  obtain rfl : closed = false := by simpa using opened
  exact .made (.string_escaped stopped) (escaped_under _ _ _)

theorem stringValue_under (s : Scanner) : (stringValue s).Under (.string s) :=
  .bind (string_under s) fun _ _ => .ite (fun _ => .pure _) fun _ => .pure _

theorem value_under {fuel : Nat} (objects : ∀ s, (object fuel s).Under (.object s))
    (arrays : ∀ s, (array fuel s).Under (.array s)) (s : Scanner) :
    (value (fuel + 1) s).Under (.value s) := by
  refine .enter (.ite (fun _ => .silent _) fun deep => ?_)
  have depth := Nat.le_of_not_lt deep
  refine .bind (.made (.value_skipWs depth) (skipWs_under s)) fun s' skipped => ?_
  obtain rfl : s.skipWs = s' := by simpa using skipped
  cases next : s.skipWs.byte? with
  | none => exact .silent _
  | some b =>
      refine .ite (fun lead => .made (.value_object depth (lead ▸ next)) (objects _)) fun _ =>
        .ite (fun lead => .made (.value_array depth (lead ▸ next)) (arrays _)) fun _ =>
        .ite (fun lead => .made (.value_string depth (lead ▸ next)) (stringValue_under _)) fun _ =>
        .ite (fun _ => .silent _) fun _ => .ite (fun _ => .silent _) fun _ =>
        .ite (fun _ => .silent _) fun _ =>
        .ite (fun lead => .made (.value_number depth next ?_) (number_under _)) fun _ => .silent _
      simpa using lead

theorem members_under {fuel : Nat} (values : ∀ s, (value fuel s).Under (.value s))
    (later : ∀ s, (members fuel s).Under (.members s)) (s : Scanner) :
    (members (fuel + 1) s).Under (.members s) := by
  refine .enter (.bind (.made .members_skipWs (skipWs_under s)) fun s' skipped => ?_)
  obtain rfl : s.skipWs = s' := by simpa using skipped
  refine .ite (fun _ => .silent _) fun quote => ?_
  have quote := not_not.mp quote
  refine .bind (.made (.members_string quote) (string_under _)) fun key named => ?_
  obtain ⟨key, s₁⟩ := key
  rw [result_string] at named
  refine .bind (.made (.members_colon quote named) (skipWs_under _)) fun s' skipped => ?_
  obtain rfl : s₁.skipWs = s' := by simpa using skipped
  refine .ite (fun _ => .silent _) fun colon => ?_
  have colon := not_not.mp colon
  refine .bind (.made (.members_value quote named colon) (values _)) fun s₂ returned => ?_
  rw [(result_functions fuel).1] at returned
  refine .bind (.made (.members_end quote named colon returned) (skipWs_under _))
    fun s' skipped => ?_
  obtain rfl : s₂.pop.skipWs = s' := by simpa using skipped
  cases next : s₂.pop.skipWs.byte? with
  | none => exact .silent _
  | some b =>
      exact .ite
        (fun comma => .made (.members_members quote named colon returned (comma ▸ next)) (later _))
        fun _ => .ite (fun _ => .pure _) fun _ => .silent _

theorem elements_under {fuel : Nat} (values : ∀ s, (value fuel s).Under (.value s))
    (later : ∀ index s, (elements fuel index s).Under (.elements index s)) (index : Nat)
    (s : Scanner) : (elements (fuel + 1) index s).Under (.elements index s) := by
  refine .enter (.bind (.made .elements_value (values _)) fun s₁ returned => ?_)
  rw [(result_functions fuel).1] at returned
  refine .bind (.made (.elements_end returned) (skipWs_under _)) fun s' skipped => ?_
  obtain rfl : s₁.pop.skipWs = s' := by simpa using skipped
  cases next : s₁.pop.skipWs.byte? with
  | none => exact .silent _
  | some b =>
      exact .ite (fun comma => .made (.elements_elements returned (comma ▸ next)) (later _ _))
        fun _ => .ite (fun _ => .pure _) fun _ => .silent _

theorem object_under {fuel : Nat} (memberss : ∀ s, (members fuel s).Under (.members s))
    (s : Scanner) : (object (fuel + 1) s).Under (.object s) := by
  refine .enter (.bind (.made .object_skipWs (skipWs_under _)) fun s' skipped => ?_)
  obtain rfl : (s.advance 1).skipWs = s' := by simpa using skipped
  exact .ite (fun _ => .pure _) fun some => .made (.object_members some) (memberss _)

theorem array_under {fuel : Nat} (elementss : ∀ index s, (elements fuel index s).Under
    (.elements index s)) (s : Scanner) : (array (fuel + 1) s).Under (.array s) := by
  refine .enter (.bind (.made .array_skipWs (skipWs_under _)) fun s' skipped => ?_)
  obtain rfl : (s.advance 1).skipWs = s' := by simpa using skipped
  exact .ite (fun _ => .pure _) fun some => .made (.array_elements some) (elementss _ _)

theorem functions_under (fuel : Nat) :
    (∀ s, (value fuel s).Under (.value s)) ∧ (∀ s, (object fuel s).Under (.object s)) ∧
      (∀ s, (members fuel s).Under (.members s)) ∧ (∀ s, (array fuel s).Under (.array s)) ∧
      ∀ index s, (elements fuel index s).Under (.elements index s) := by
  induction fuel with
  | zero =>
      exact ⟨fun _ => .silent _, fun _ => .silent _, fun _ => .silent _, fun _ => .silent _,
        fun _ _ => .silent _⟩
  | succ fuel ih =>
      obtain ⟨values, objects, memberss, arrays, elementss⟩ := ih
      exact ⟨value_under objects arrays, object_under memberss, members_under values memberss,
        array_under elementss, elements_under values elementss⟩

/-- All that is noted while a text is scanned are calls of its scan. -/
theorem reaches_of_mem_run {text : Str} {call : Call} (noted : call ∈ (run text).calls) :
    Reaches text call := by
  have under : (run text).Under (.scan (Scanner.start text)) := by
    refine .enter (.bind (.made .scan_value ((functions_under _).1 _)) fun s returned => ?_)
    rw [(result_functions _).1] at returned
    exact .bind (.made (.scan_skipWs returned) (skipWs_under s)) fun _ _ =>
      .ite (fun _ => .silent _) fun _ => .pure _
  exact under call noted

end Traced

end Proxemby
