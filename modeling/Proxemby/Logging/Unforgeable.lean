import Proxemby.Lib.Unambiguous
import Proxemby.Logging.TextFormat

/-!
# No value fakes a record

A JSON record is one object with the given members.  With the reading of text records, no
string in a record can pass for another attribute or another record.
-/

namespace Proxemby.Logging

open Text Rfc8259

/-! ## JSON values -/

theorem isDigit_of_mem_toDigits {n : Nat} {c : Char} (member : c ∈ Nat.toDigits 10 n) :
    isDigit c = true := by
  have digit := Nat.isDigit_of_mem_toDigits (by decide) (by decide) member
  simpa [Char.isDigit, isDigit, Char.le_def] using digit

/-- The digits of a positive number begin with another one than zero. -/
theorem toDigits_first {n : Nat} (positive : 0 < n) :
    ∃ first rest, Nat.toDigits 10 n = first :: rest ∧ first ≠ '0' := by
  induction n using Nat.strongRecOn with
  | ind n ih =>
      by_cases small : n < 10
      · rw [Nat.toDigits_of_lt_base small]
        refine ⟨_, [], rfl, ?_⟩
        have each : ∀ n < 10, 0 < n → n.digitChar ≠ '0' := by decide
        exact each n small positive
      · rw [Nat.toDigits_of_base_le (by decide) (Nat.le_of_not_lt small)]
        obtain ⟨first, rest, digits, nonzero⟩ := ih (n / 10) (by omega) (by omega)
        exact ⟨first, rest ++ [_], by rw [digits]; rfl, nonzero⟩

theorem isInt_toDigits (n : Nat) : IsInt (Nat.toDigits 10 n) := by
  rcases Nat.eq_zero_or_pos n with rfl | positive
  · exact .inl (Nat.toDigits_zero 10)
  · obtain ⟨first, rest, digits, nonzero⟩ := toDigits_first positive
    have each (c : Char) (member : c ∈ first :: rest) : isDigit c = true :=
      isDigit_of_mem_toDigits (digits ▸ member)
    exact .inr ⟨first, rest, digits, each first List.mem_cons_self, nonzero,
      fun c member => each c (List.mem_cons_of_mem _ member)⟩

theorem isNumber_toDigits (n : Nat) : IsNumber (Nat.toDigits 10 n) :=
  ⟨[], _, [], [], by simp, .inl rfl, isInt_toDigits n, .inl rfl, .inl rfl⟩

theorem isNumber_intText (n : Int) : IsNumber (intText n) := by
  cases n with
  | ofNat n => exact isNumber_toDigits n
  | negSucc n =>
      exact ⟨['-'], _, [], [], by simp [intText], .inr rfl, isInt_toDigits (n + 1), .inl rfl,
        .inl rfl⟩

/-- What stands for a character in a JSON string denotes it, and has no control characters. -/
theorem denotes_jsonChar (c : Char) {source value : Str} (denotes : Denotes source value) :
    Denotes (jsonChar c ++ source) (c :: value) ∧ ∀ d ∈ jsonChar c, 0x20 ≤ d.toNat := by
  rw [jsonChar]
  split
  · next quote =>
      subst quote
      exact ⟨.short rfl denotes, by decide⟩
  · next notQuote =>
      split
      · next backslash =>
          subst backslash
          exact ⟨.short rfl denotes, by decide⟩
      · next notBackslash =>
          split
          · next newline =>
              subst newline
              exact ⟨.short rfl denotes, by decide⟩
          · split
            · next carriage =>
                subst carriage
                exact ⟨.short rfl denotes, by decide⟩
            · split
              · next tab =>
                  subst tab
                  exact ⟨.short rfl denotes, by decide⟩
              · split
                · next control =>
                    have each : ∀ n < 0x20, (padded 16 4 n).length = 4 ∧
                        hexNumber (padded 16 4 n) = some n ∧ n.isValidChar ∧
                        ∀ d ∈ padded 16 4 n, 0x20 ≤ d.toNat := by decide +kernel
                    obtain ⟨length, number, valid, visible⟩ := each c.toNat control
                    refine ⟨?_, List.forall_mem_cons.mpr ⟨by decide,
                      List.forall_mem_cons.mpr ⟨by decide, visible⟩⟩⟩
                    have unicode := Denotes.unicode length number valid denotes
                    rwa [Char.ofNat_toNat] at unicode
                · next visible =>
                    have plain : 0x20 ≤ c.toNat := Nat.le_of_not_lt visible
                    exact ⟨.unescaped ⟨plain, notQuote, notBackslash⟩ denotes, by simpa using plain⟩

theorem denotes_jsonChars (s : Str) :
    Denotes (s.flatMap jsonChar) s ∧ ∀ d ∈ s.flatMap jsonChar, 0x20 ≤ d.toNat := by
  induction s with
  | nil => exact ⟨.nil, by simp⟩
  | cons c s ih =>
      obtain ⟨denotes, visible⟩ := denotes_jsonChar c ih.1
      rw [List.flatMap_cons]
      exact ⟨denotes, List.forall_mem_append.mpr ⟨visible, ih.2⟩⟩

/-- The text of a value, with no control characters. -/
structure IsJsonValue (text : Str) (document : Json) : Prop where
  value : ∃ pieces, Rfc8259.Value Denotes pieces document ∧ Piece.flat pieces = text
  visible : ∀ c ∈ text, 0x20 ≤ c.toNat

theorem isJsonValue_string (s : Str) : IsJsonValue (pushJsonString s) (.string s) := by
  obtain ⟨denotes, visible⟩ := denotes_jsonChars s
  refine ⟨⟨_, .string denotes, by simp [pushJsonString]⟩, ?_⟩
  rw [pushJsonString]
  exact List.forall_mem_append.mpr
    ⟨List.forall_mem_cons.mpr ⟨by decide, visible⟩, by decide⟩

/-- The items of a list that is not empty. -/
theorem elements_items (item : Str) (items : List Str) :
    (∃ pieces, Elements Denotes pieces ((item :: items).map .string) ∧
      Piece.flat pieces = pushJsonItems true (item :: items)) ∧
    ∀ c ∈ pushJsonItems true (item :: items), 0x20 ≤ c.toNat := by
  have blank : IsWs [] := by simp [IsWs]
  induction items generalizing item with
  | nil =>
      obtain ⟨⟨pieces, value, text⟩, visible⟩ := isJsonValue_string item
      refine ⟨⟨_, .one blank value blank, ?_⟩, ?_⟩
      · simp [pushJsonItems, text]
      · simpa [pushJsonItems] using visible
  | cons second items ih =>
      obtain ⟨⟨pieces, value, text⟩, visible⟩ := isJsonValue_string item
      obtain ⟨⟨rest, elements, texts⟩, visibles⟩ := ih second
      have whole : pushJsonItems true (item :: second :: items) =
          pushJsonString item ++ ',' :: pushJsonItems true (second :: items) := by
        simp [pushJsonItems]
      rw [whole]
      refine ⟨⟨_, .cons blank value blank elements, ?_⟩, ?_⟩
      · simp [text, texts]
      · exact List.forall_mem_append.mpr ⟨visible, List.forall_mem_cons.mpr ⟨by decide, visibles⟩⟩

namespace Value

/-- The value as a JSON document. -/
def json : Value → Json
  | .str s => .string s
  | .int i => .number (intText i)
  | .bool b => .bool b
  | .list items => .array (items.map .string)
  | .duration d => .number (Nat.toDigits 10 d)

theorem isJsonValue (value : Value) : IsJsonValue (pushJsonValue value) value.json := by
  cases value with
  | str s => exact isJsonValue_string s
  | int i =>
      exact ⟨⟨_, .number (isNumber_intText i), by simp [pushJsonValue]⟩,
        (written_bareChars (bare_intText i)).visible⟩
  | bool b =>
      cases b with
      | true => exact ⟨⟨_, .true, by simp [pushJsonValue, boolText]⟩, by decide⟩
      | false => exact ⟨⟨_, .false, by simp [pushJsonValue, boolText]⟩, by decide⟩
  | list items =>
      cases items with
      | nil => exact ⟨⟨_, @Value.emptyArray _ [] (by simp [IsWs]), rfl⟩, by decide⟩
      | cons item items =>
          obtain ⟨⟨pieces, elements, text⟩, visible⟩ := elements_items item items
          refine ⟨⟨_, .array elements, by simp [pushJsonValue, text]⟩, ?_⟩
          exact List.forall_mem_append.mpr
            ⟨List.forall_mem_cons.mpr ⟨by decide, visible⟩, by decide⟩
  | duration d =>
      exact ⟨⟨_, .number (isNumber_toDigits d), by simp [pushJsonValue]⟩,
        (written_bareChars (bare_toDigits d)).visible⟩

end Value

/-! ## JSON records -/

/-- The text of a member of an object, with no control characters. -/
structure IsMember (text : Str) (member : Str × Json) : Prop where
  parts : ∃ key pieces, Denotes key member.1 ∧ Rfc8259.Value Denotes pieces member.2 ∧
    text = '"' :: key ++ '"' :: ':' :: Piece.flat pieces
  visible : ∀ c ∈ text, 0x20 ≤ c.toNat

theorem isMember (key : Str) {text : Str} {document : Json} (isValue : IsJsonValue text document) :
    IsMember (pushJsonString key ++ ':' :: text) (key, document) := by
  obtain ⟨⟨pieces, value, rfl⟩, visible⟩ := isValue
  refine ⟨⟨_, pieces, (denotes_jsonChars key).1, value, by simp [pushJsonString]⟩, ?_⟩
  exact List.forall_mem_append.mpr
    ⟨(isJsonValue_string key).visible, List.forall_mem_cons.mpr ⟨by decide, visible⟩⟩

abbrev AreMembers (texts : List Str) (members : List (Str × Json)) : Prop :=
  List.Forall₂ IsMember texts members

/-- Members with commas between them. -/
theorem members_join {first : Str} {texts : List Str} {members : List (Str × Json)}
    (are : AreMembers (first :: texts) members) :
    (∃ pieces, Members Denotes pieces members ∧
      Piece.flat pieces = first ++ texts.flatMap (',' :: ·)) ∧
    ∀ c ∈ first ++ texts.flatMap (',' :: ·), 0x20 ≤ c.toNat := by
  have blank : IsWs [] := by simp [IsWs]
  induction texts generalizing first members with
  | nil =>
      cases are with
      | cons isMember none =>
          cases none
          obtain ⟨⟨key, pieces, denotes, value, rfl⟩, visible⟩ := isMember
          exact ⟨⟨_, .one blank denotes blank blank value blank, by simp⟩, by simpa using visible⟩
  | cons second texts ih =>
      cases are with
      | cons isMember are =>
          obtain ⟨⟨rest, others, text⟩, visibles⟩ := ih are
          obtain ⟨⟨key, pieces, denotes, value, rfl⟩, visible⟩ := isMember
          rw [List.flatMap_cons, List.cons_append]
          refine ⟨⟨_, .cons blank denotes blank blank value blank others, by simp [text]⟩, ?_⟩
          exact List.forall_mem_append.mpr
            ⟨visible, List.forall_mem_cons.mpr ⟨by decide, visibles⟩⟩

/-- A text is the JSON text of a document. -/
def IsJson (text : Str) (document : Json) : Prop :=
  ∃ pieces, JsonText Denotes pieces document ∧ Piece.flat pieces = text

theorem IsJson.unique {text : Str} {document document' : Json} (isJson : IsJson text document)
    (isJson' : IsJson text document') : document = document' := by
  obtain ⟨pieces, parsed, flat⟩ := isJson
  obtain ⟨pieces', parsed', flat'⟩ := isJson'
  exact parsed.unique uniqueLits_denotes parsed' (flat.trans flat'.symm)

namespace Logger

variable (logger : Logger) (level : Level) (msg : Str) (attrs : Attrs)

/-- The members of a JSON record. -/
def members (time : Option Str) : List (Str × Json) :=
  (time.map fun time => ("time".toList, Json.string time)).toList ++
    ("level".toList, .string level.asStr) :: ("msg".toList, .string msg) ::
      (logger.attrs ++ attrs).map fun attr => (attr.1.text, attr.2.json)

theorem areMembers_attrs (attrs : Attrs) :
    AreMembers (attrs.map fun attr => pushJsonString attr.1.text ++ ':' :: pushJsonValue attr.2)
      (attrs.map fun attr => (attr.1.text, attr.2.json)) := by
  induction attrs with
  | nil => exact .nil
  | cons attr attrs ih => exact .cons (isMember attr.1.text attr.2.isJsonValue) ih

/-- A JSON record is made of the members. -/
theorem jsonLine_members (time : Option Str) :
    ∃ first texts, logger.jsonLine time level msg attrs =
        '{' :: (first ++ texts.flatMap (',' :: ·)) ++ ['}'] ∧
      AreMembers (first :: texts) (logger.members level msg attrs time) := by
  have stringMember (key value : Str) :
      IsMember (pushJsonString key ++ ':' :: pushJsonString value) (key, .string value) :=
    isMember key (isJsonValue_string value)
  have later := List.Forall₂.cons (stringMember "msg".toList msg)
    (areMembers_attrs (logger.attrs ++ attrs))
  have attrTexts : (logger.attrs ++ attrs).flatMap (fun attr =>
        ',' :: pushJsonString attr.1.text ++ ':' :: pushJsonValue attr.2) =
      ((logger.attrs ++ attrs).map fun attr =>
        pushJsonString attr.1.text ++ ':' :: pushJsonValue attr.2).flatMap (',' :: ·) := by
    rw [List.flatMap_map]
    rfl
  have timeText : "\"time\":".toList = pushJsonString "time".toList ++ [':'] := by decide
  have levelText : "\"level\":".toList = pushJsonString "level".toList ++ [':'] := by decide
  have msgText : ",\"msg\":".toList = ',' :: pushJsonString "msg".toList ++ [':'] := by decide
  cases time with
  | none =>
      refine ⟨_, _, ?_,
        List.Forall₂.cons (stringMember "level".toList level.asStr) later⟩
      unfold jsonLine
      rw [attrTexts, List.flatMap_cons, levelText, msgText]
      simp only [List.append_assoc, List.cons_append, List.nil_append]
  | some time =>
      refine ⟨_, _, ?_, List.Forall₂.cons (stringMember "time".toList time)
        (List.Forall₂.cons (stringMember "level".toList level.asStr) later)⟩
      unfold jsonLine
      rw [attrTexts, List.flatMap_cons, List.flatMap_cons, timeText, levelText, msgText]
      simp only [List.append_assoc, List.cons_append, List.nil_append]

/-- A record is one line without control characters of ASCII.  As JSON it is one object, with
the given members; as text, what is read in it are the given fields. -/
structure Unforgeable (time : Option Str) (record : Str) : Prop where
  line : ∃ line, record = line ++ ['\n'] ∧ (∀ c ∈ line, 0x20 ≤ c.toNat) ∧
    (logger.config.format = .json → ∀ document,
      IsJson line document ↔ document = .object (logger.members level msg attrs time)) ∧
    (logger.config.format = .text →
      readRecord line = (logger.fields level msg attrs time).map some)

/-- The time of a record. -/
def timeOf (now : Int) : Option Str :=
  if logger.config.time then some (formatTime now) else none

theorem log_unforgeable {now : Int} {record : Str}
    (written : logger.log now level msg attrs = some record) :
    logger.Unforgeable level msg attrs (logger.timeOf now) record := by
  have bare : ∀ text ∈ logger.timeOf now, ∀ c ∈ text, isBareChar c = true := by
    intro text member
    rw [timeOf] at member
    split at member
    · obtain rfl := Option.some.inj member
      exact bare_formatTime now
    · cases member
  rw [log] at written
  split at written
  · cases written
  · obtain rfl := Option.some.inj written
    change logger.Unforgeable level msg attrs (logger.timeOf now) _
    cases format : logger.config.format with
    | text =>
        obtain ⟨first, fields, line, are⟩ :=
          logger.textLine_fields level msg attrs bare
        refine ⟨logger.textLine (logger.timeOf now) level msg attrs, rfl, ?_, ?_, ?_⟩
        · rw [line]
          exact visible_join are
        · intro json
          rw [format] at json
          cases json
        · intro _
          rw [line, readRecord_join are]
    | json =>
        obtain ⟨first, texts, line, are⟩ :=
          logger.jsonLine_members level msg attrs (logger.timeOf now)
        obtain ⟨⟨pieces, members, text⟩, visible⟩ := members_join are
        have isJson : IsJson (logger.jsonLine (logger.timeOf now) level msg attrs)
            (.object (logger.members level msg attrs (logger.timeOf now))) := by
          refine ⟨_, ⟨[], _, [], by simp [IsWs], .object members, by simp [IsWs], rfl⟩, ?_⟩
          rw [line]
          simp [text]
        refine ⟨logger.jsonLine (logger.timeOf now) level msg attrs, rfl, ?_, ?_, ?_⟩
        · rw [line]
          exact List.forall_mem_append.mpr
            ⟨List.forall_mem_cons.mpr ⟨by decide, visible⟩, by decide⟩
        · intro _ document
          constructor
          · intro isJson'
            exact isJson'.unique isJson
          · rintro rfl
            exact isJson
        · intro text
          rw [format] at text
          cases text

end Logger

/-- The name of the client in a record, with a blank, quotes and a line break. -/
def agentKey : Key where
  text := "user_agent".toList
  chars := by decide

def plainLogger : Logger where
  config := { level := .debug, format := .text, time := false }
  attrs := []

theorem log_unforgeable_agent :
    ∃ line, (∀ c ∈ line, 0x20 ≤ c.toNat) ∧ readRecord line =
      [some ("level".toList, "INFO".toList), some ("msg".toList, "login".toList),
        some ("user_agent".toList, "x\" user=\"root\n".toList)] := by
  obtain ⟨line, -, visible, -, read⟩ :=
    (@Logger.log_unforgeable plainLogger .info "login".toList
      [(agentKey, .str "x\" user=\"root\n".toList)] 0 _ rfl).line
  exact ⟨line, visible, read rfl⟩

end Proxemby.Logging
