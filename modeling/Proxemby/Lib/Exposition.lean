import Mathlib.Algebra.BigOperators.Group.List.Basic
import Proxemby.Lib.Text

/-!
# The text format of metrics

A line says what a metric is for, of which type it is, or which value one of its series has.
The reader takes natural numbers without time stamps, and help texts as they are written.
-/

namespace Exposition

open Text

/-- One series of a metric, with the names and values of its labels. -/
structure Series where
  metric : List Char
  labels : List (List Char × List Char)
  deriving DecidableEq

inductive Line where
  | help (metric text : List Char)
  | type (metric type : List Char)
  | sample (series : Series) (value : Nat)
  deriving DecidableEq

def Line.series? : Line → Option Series
  | .sample series _ => some series
  | _ => none

/-- The types of metrics. -/
def types : List (List Char) :=
  ["counter".toList, "gauge".toList, "histogram".toList, "summary".toList, "untyped".toList]

def isNameChar (c : Char) : Bool := c.isAlphanum || c = '_' || c = ':'

/-- Names of metrics and labels. -/
def IsName (name : List Char) : Prop := name ≠ [] ∧ name.all isNameChar = true

instance (name : List Char) : Decidable (IsName name) := inferInstanceAs (Decidable (_ ∧ _))

theorem IsName.notMem {name : List Char} (isName : IsName name) {c : Char}
    (other : isNameChar c = false) : c ∉ name := by
  intro member
  have named := List.all_eq_true.mp isName.2 c member
  rw [other] at named
  cases named

/-! ## Writing -/

/-- A character of a label's value. -/
def escape (c : Char) : List Char :=
  if c = '\\' then ['\\', '\\']
  else if c = '"' then ['\\', '"']
  else if c = '\n' then ['\\', 'n']
  else [c]

/-- A value that is written as it is. -/
def IsPlain (value : List Char) : Prop := ∀ c ∈ value, escape c = [c]

instance (value : List Char) : Decidable (IsPlain value) :=
  inferInstanceAs (Decidable (∀ c ∈ value, escape c = [c]))

theorem IsPlain.flatMap_escape {value : List Char} (plain : IsPlain value) :
    value.flatMap escape = value := by
  induction value with
  | nil => rfl
  | cons c value ih =>
      obtain ⟨here, later⟩ := List.forall_mem_cons.mp plain
      rw [List.flatMap_cons, here, ih later, List.singleton_append]

def labelText (label : List Char × List Char) : List Char :=
  label.1 ++ '=' :: '"' :: (label.2.flatMap escape ++ ['"'])

def labelsText : List (List Char × List Char) → List Char
  | [] => []
  | label :: labels =>
      '{' :: (labelText label ++ labels.flatMap (fun l => ',' :: labelText l)) ++ ['}']

def Line.text : Line → List Char
  | .help metric text => "# HELP ".toList ++ metric ++ ' ' :: text
  | .type metric kind => "# TYPE ".toList ++ metric ++ ' ' :: kind
  | .sample series value =>
      series.metric ++ labelsText series.labels ++ ' ' :: Nat.toDigits 10 value

theorem text_help (metric text : List Char) :
    (Line.help metric text).text = "# HELP ".toList ++ (metric ++ ' ' :: text) :=
  List.append_assoc _ _ _

theorem text_type (metric kind : List Char) :
    (Line.type metric kind).text = "# TYPE ".toList ++ (metric ++ ' ' :: kind) :=
  List.append_assoc _ _ _

theorem text_sample (series : Series) (value : Nat) : (Line.sample series value).text =
    series.metric ++ labelsText series.labels ++ ' ' :: Nat.toDigits 10 value := rfl

def write (lines : List Line) : List Char := terminated '\n' (lines.map Line.text)

/-! ## Reading -/

/-- Read a label's value up to the closing quote. -/
def readValue : List Char → Option (List Char × List Char)
  | [] => none
  | '"' :: rest => some ([], rest)
  | '\\' :: '\\' :: rest => (readValue rest).map (Prod.map ('\\' :: ·) id)
  | '\\' :: '"' :: rest => (readValue rest).map (Prod.map ('"' :: ·) id)
  | '\\' :: 'n' :: rest => (readValue rest).map (Prod.map ('\n' :: ·) id)
  | '\\' :: _ => none
  | c :: rest => (readValue rest).map (Prod.map (c :: ·) id)

/-- Read one label. -/
def readLabel (text : List Char) : Option ((List Char × List Char) × List Char) :=
  match splitOnce '=' text with
  | some (name, '"' :: rest) =>
      if IsName name then (readValue rest).map (Prod.map (name, ·) id) else none
  | _ => none

/-- Read labels up to the closing brace; there are no more of them than characters. -/
def readLabels : Nat → List Char → Option (List (List Char × List Char) × List Char)
  | 0, _ => none
  | most + 1, text =>
      match readLabel text with
      | some (label, ',' :: rest) => (readLabels most rest).map (Prod.map (label :: ·) id)
      | some (label, '}' :: rest) => some ([label], rest)
      | _ => none

def readSeries (text : List Char) : Option (Series × List Char) :=
  let metric := text.takeWhile isNameChar
  if IsName metric then
    match text.dropWhile isNameChar with
    | '{' :: rest => (readLabels rest.length rest).map (Prod.map (⟨metric, ·⟩) id)
    | rest => some (⟨metric, []⟩, rest)
  else none

def readNat (text : List Char) : Option Nat :=
  if text ≠ [] ∧ text.all Char.isDigit = true then some (Nat.ofDigitChars 10 text 0) else none

def readLine (text : List Char) : Option Line :=
  match stripPrefix "# HELP ".toList text, stripPrefix "# TYPE ".toList text with
  | some rest, _ =>
      match splitOnce ' ' rest with
      | some (metric, help) => if IsName metric then some (.help metric help) else none
      | none => none
  | none, some rest =>
      match splitOnce ' ' rest with
      | some (metric, type) =>
          if IsName metric ∧ type ∈ types then some (.type metric type) else none
      | none => none
  | none, none =>
      match readSeries text with
      | some (series, ' ' :: rest) => (readNat rest).map (.sample series)
      | _ => none

/-- Read a whole text. -/
def read (text : List Char) : Option (List Line) :=
  (terminatedParts '\n' text).bind (·.mapM readLine)

/-! ## What is written can be read -/

/-- A line that the format has a place for. -/
def Line.WellFormed : Line → Prop
  | .help metric text => IsName metric ∧ '\n' ∉ text
  | .type metric kind => IsName metric ∧ kind ∈ types
  | .sample series _ => IsName series.metric ∧ ∀ label ∈ series.labels, IsName label.1

theorem readValue_plain {c : Char} (quote : c ≠ '"') (backslash : c ≠ '\\')
    (rest : List Char) :
    readValue (c :: rest) = (readValue rest).map (Prod.map (c :: ·) id) := by
  rw [readValue.eq_def]
  split <;> simp_all

theorem readValue_escape (value rest : List Char) :
    readValue (value.flatMap escape ++ '"' :: rest) = some (value, rest) := by
  induction value with
  | nil => rfl
  | cons c value ih =>
      rw [List.flatMap_cons, List.append_assoc, escape]
      split
      · next same =>
          subst same
          simp [readValue, ih]
      · next backslash =>
          split
          · next same =>
              subst same
              simp [readValue, ih]
          · next quote =>
              split
              · next same =>
                  subst same
                  simp [readValue, ih]
              · rw [List.singleton_append, readValue_plain quote backslash, ih]
                rfl

theorem readLabel_text {label : List Char × List Char} (named : IsName label.1)
    (rest : List Char) : readLabel (labelText label ++ rest) = some (label, rest) := by
  have cut : splitOnce '=' (labelText label ++ rest) =
      some (label.1, '"' :: (label.2.flatMap escape ++ '"' :: rest)) := by
    rw [labelText, List.append_assoc, List.cons_append,
      splitOnce_append (named.notMem (by decide))]
    simp
  simp [readLabel, cut, named, readValue_escape]

/-- Labels are read up to the brace behind them. -/
theorem readLabels_text {label : List Char × List Char}
    {labels : List (List Char × List Char)} (named : ∀ l ∈ label :: labels, IsName l.1)
    (rest : List Char) {most : Nat} (enough : labels.length < most) :
    readLabels most (labelText label ++ labels.flatMap (fun l => ',' :: labelText l) ++
      '}' :: rest) = some (label :: labels, rest) := by
  obtain ⟨first, others⟩ := List.forall_mem_cons.mp named
  obtain ⟨most, rfl⟩ := Nat.exists_eq_add_one_of_ne_zero (Nat.ne_zero_of_lt enough)
  induction labels generalizing label most with
  | nil => simp [readLabels, readLabel_text first]
  | cons second labels ih =>
      obtain ⟨named', later⟩ := List.forall_mem_cons.mp others
      obtain ⟨most, rfl⟩ := Nat.exists_eq_add_one_of_ne_zero
        (Nat.ne_zero_of_lt (Nat.lt_of_succ_lt_succ enough))
      have rest' := @ih second others named' later most
        (Nat.lt_of_succ_lt_succ enough)
      rw [readLabels, List.flatMap_cons, List.append_assoc, readLabel_text first]
      simp only [List.cons_append, List.append_assoc] at rest' ⊢
      rw [rest']
      rfl

theorem readNat_toDigits (n : Nat) : readNat (Nat.toDigits 10 n) = some n := by
  have digits : (Nat.toDigits 10 n).all Char.isDigit = true :=
    List.all_eq_true.mpr fun c => Nat.isDigit_of_mem_toDigits (by decide) (by decide)
  rw [readNat, if_pos ⟨Nat.toDigits_ne_nil, digits⟩, Nat.ofDigitChars_ten_toDigits]

theorem readSeries_text {series : Series} (isName : IsName series.metric)
    (named : ∀ label ∈ series.labels, IsName label.1) (value : List Char) :
    readSeries (series.metric ++ labelsText series.labels ++ ' ' :: value) =
      some (series, ' ' :: value) := by
  obtain ⟨metric, labels⟩ := series
  have letters : ∀ c ∈ metric, isNameChar c = true := List.all_eq_true.mp isName.2
  have brace : isNameChar '{' = false := by decide
  have space : isNameChar ' ' = false := by decide
  cases labels with
  | nil =>
      simp [readSeries, labelsText, List.takeWhile_append_of_pos letters,
        List.dropWhile_append_of_pos letters, space, isName]
  | cons label labels =>
      let text := labelText label ++ (labels.flatMap (fun l => ',' :: labelText l) ++
        '}' :: ' ' :: value)
      have enough : labels.length < text.length := by
        have more := List.length_le_sum_of_one_le
          (labels.map fun l => (labelText l).length + 1)
          (List.forall_mem_map.mpr fun _ _ => Nat.succ_pos _)
        simp only [text, List.length_map, List.length_append, List.length_flatMap,
          List.length_cons] at more ⊢
        omega
      have read : readLabels text.length text = some (label :: labels, ' ' :: value) := by
        have read := readLabels_text named (' ' :: value) enough
        rwa [List.append_assoc] at read
      have whole : metric ++ labelsText (label :: labels) ++ ' ' :: value =
          metric ++ '{' :: text := by simp [labelsText, text]
      rw [readSeries, whole, List.takeWhile_append_of_pos letters,
        List.dropWhile_append_of_pos letters, List.takeWhile_cons_of_neg (by simp [brace]),
        List.dropWhile_cons_of_neg (by simp [brace]), List.append_nil, if_pos isName]
      simp only [read, Option.map_some, Prod.map_apply, id_eq]

/-- Names do not start like comments. -/
theorem stripPrefix_name {word name : List Char} (isName : IsName name) (rest : List Char) :
    stripPrefix ('#' :: word) (name ++ rest) = none := by
  obtain ⟨c, name, rfl⟩ := List.exists_cons_of_ne_nil isName.1
  have differ : c ≠ '#' := by
    rintro rfl
    exact isName.notMem (by decide) List.mem_cons_self
  simp [stripPrefix, Ne.symm differ]

theorem readLine_text {line : Line} (wellFormed : line.WellFormed) :
    readLine line.text = some line := by
  cases line with
  | help metric text =>
      obtain ⟨isName, -⟩ := wellFormed
      have cut := splitOnce_append (isName.notMem (show isNameChar ' ' = false by decide)) text
      rw [text_help, readLine, stripPrefix_append]
      simp only [cut, isName, if_true]
  | type metric kind =>
      obtain ⟨isName, known⟩ := wellFormed
      have cut := splitOnce_append (isName.notMem (show isNameChar ' ' = false by decide)) kind
      have other : stripPrefix "# HELP ".toList ("# TYPE ".toList ++ (metric ++ ' ' :: kind)) =
          none := rfl
      rw [text_type, readLine, other, stripPrefix_append]
      simp only [cut, isName, known, and_self, if_true]
  | sample series value =>
      obtain ⟨isName, named⟩ := wellFormed
      have help : stripPrefix "# HELP ".toList (Line.sample series value).text = none := by
        rw [text_sample, List.append_assoc]
        exact stripPrefix_name isName _
      have type : stripPrefix "# TYPE ".toList (Line.sample series value).text = none := by
        rw [text_sample, List.append_assoc]
        exact stripPrefix_name isName _
      rw [readLine, help, type, text_sample]
      simp only [readSeries_text isName named, readNat_toDigits, Option.map_some]

/-! ## Lines stay lines -/

theorem newline_notMem_escape (c : Char) : '\n' ∉ escape c := by
  rw [escape]
  split
  · decide
  · split
    · decide
    · split
      · decide
      · next differ => simp [Ne.symm differ]

theorem newline_notMem_labelText {label : List Char × List Char} (isName : IsName label.1) :
    '\n' ∉ labelText label := by
  have name : '\n' ∉ label.1 := isName.notMem (by decide)
  simp [labelText, name, newline_notMem_escape]

theorem newline_notMem_labelsText {labels : List (List Char × List Char)}
    (named : ∀ label ∈ labels, IsName label.1) : '\n' ∉ labelsText labels := by
  have each : ∀ label ∈ labels, '\n' ∉ labelText label := fun label member =>
    newline_notMem_labelText (named label member)
  cases labels with
  | nil => simp [labelsText]
  | cons label labels =>
      obtain ⟨first, others⟩ := List.forall_mem_cons.mp each
      simpa [labelsText, first] using others

theorem newline_notMem_text {line : Line} (wellFormed : line.WellFormed) : '\n' ∉ line.text := by
  cases line with
  | help metric text =>
      obtain ⟨isName, whole⟩ := wellFormed
      have name : '\n' ∉ metric := isName.notMem (by decide)
      simp [text_help, name, whole]
  | type metric kind =>
      obtain ⟨isName, known⟩ := wellFormed
      have name : '\n' ∉ metric := isName.notMem (by decide)
      have whole : ∀ kind ∈ types, '\n' ∉ kind := by decide
      simp [text_type, name, whole kind known]
  | sample series value =>
      obtain ⟨isName, named⟩ := wellFormed
      have name : '\n' ∉ series.metric := isName.notMem (by decide)
      have digits : '\n' ∉ Nat.toDigits 10 value := fun member =>
        absurd (Nat.isDigit_of_mem_toDigits (by decide) (by decide) member) (by decide)
      simp [text_sample, name, digits, newline_notMem_labelsText named]

/-- Well-formed lines are read as they were written. -/
theorem read_write {lines : List Line} (wellFormed : ∀ line ∈ lines, line.WellFormed) :
    read (write lines) = some lines := by
  rw [read, write, terminatedParts_terminated, Option.bind_some]
  · induction lines with
    | nil => rfl
    | cons line lines ih =>
        obtain ⟨here, later⟩ := List.forall_mem_cons.mp wellFormed
        rw [List.map_cons, List.mapM_cons, readLine_text here, ih later]
        rfl
  · intro part member
    obtain ⟨line, given, rfl⟩ := List.mem_map.mp member
    exact newline_notMem_text (wellFormed line given)

end Exposition
