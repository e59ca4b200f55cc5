import Proxemby.Rewrite.Completeness
import Proxemby.Rewrite.Rewriter
import Proxemby.Rewrite.Totality

/-!
# Rewriting as an edit of the document

The splice loop works on octet spans of the body.  Along the pieces of a JSON text
the spans are disjoint and in order, so the loop replaces the literals of the
rewritable strings and copies everything else.
-/

namespace Proxemby

open Utf8 Rfc8259

/-- The strings of an event that a caller compares. -/
def RewriteEvent.change (event : RewriteEvent) : Str × Str :=
  (event.original, event.rewritten)

namespace Rewriter

variable (rewriter : Rewriter) (toJson : Str → Str)

/-- The URL that takes the place of a string value, if it is rewritable. -/
def replacement (value : Str) : Option Str := (urlParts value).map rewriter.rewritten

theorem rewriteUrl_eq (registry : Registry) (raw : Str) :
    rewriter.rewriteUrl registry raw = (urlParts raw).map fun url =>
      (registry.allow url.host url.scheme, rewriter.rewritten url, url.scheme, url.host) := by
  cases parts : urlParts raw <;> simp [rewriteUrl, parts]

theorem rewriteUrl_eq_none {registry : Registry} {raw : Str} :
    rewriter.rewriteUrl registry raw = none ↔ rewriter.replacement raw = none := by
  simp [rewriteUrl_eq, replacement]

/-- Only absolute URLs are rewritable. -/
theorem isAbsolute_of_urlParts {value : Str} {url : UrlParts}
    (parts : urlParts value = some url) : Scanner.isAbsolute value = true := by
  simp only [urlParts, Option.bind_eq_bind, Option.bind_eq_some_iff] at parts
  obtain ⟨⟨scheme, rest⟩, split, -⟩ := parts
  simp only [splitScheme] at split
  rw [Scanner.isAbsolute, Bool.or_eq_true]
  split at split
  · next stripped =>
      rw [Text.stripPrefix_eq_some] at stripped
      exact .inr (List.isPrefixOf_iff_prefix.mpr ⟨_, stripped.symm⟩)
  · simp only [Option.map_eq_some_iff, Prod.mk.injEq] at split
    obtain ⟨tail, stripped, -⟩ := split
    rw [Text.stripPrefix_eq_some] at stripped
    exact .inl (List.isPrefixOf_iff_prefix.mpr ⟨_, stripped.symm⟩)

/-! ## The splice loop along the pieces -/

/-- What stands for a piece in the output. -/
def pieceText : Piece → Str
  | .raw text => text
  | .string source value =>
      match rewriter.replacement value with
      | some url => toJson url
      | none => (Piece.string source value).text

/-- What the output would be if the body ended at `stop`. -/
def Splice.content (state : Splice) (body : Bytes) (stop : Nat) : Bytes :=
  state.out.getD [] ++ (body.drop state.last).take (stop - state.last)

theorem content_copy {state : Splice} {body : Bytes} {start : Nat} {text rest : Bytes}
    (at' : body.drop start = text ++ rest) (ordered : state.last ≤ start) :
    state.content body (start + text.length) = state.content body start ++ text := by
  have skip : (body.drop state.last).drop (start - state.last) = text ++ rest := by
    rw [List.drop_drop, Nat.add_sub_cancel' ordered, at']
  rw [Splice.content, Splice.content, Nat.sub_add_comm ordered, List.take_add, skip,
    List.take_left', List.append_assoc]
  rfl

/-- One rewritten string in the splice loop. -/
theorem splice_rewritten {body : Bytes} {state : Splice} {item : FoundString}
    {url : UrlParts} (parts : urlParts item.value = some url)
    (ordered : state.last ≤ item.start) (inside : item.start ≤ body.length) :
    rewriter.splice toJson body state item = some {
      registry := state.registry.allow url.host url.scheme
      out := some (state.content body item.start ++ encode (toJson (rewriter.rewritten url)))
      last := item.stop
      events := state.events ++
        [⟨item.path, item.value, rewriter.rewritten url, url.scheme, url.host⟩] } := by
  simp [splice, rewriteUrl_eq, parts, bodySlice, ordered, inside, Splice.content]

theorem splice_skipped {body : Bytes} {state : Splice} {item : FoundString}
    (parts : urlParts item.value = none) :
    rewriter.splice toJson body state item = some state := by
  simp [splice, rewriteUrl_eq, parts]

/-- The pairs of a value and its replacement, in the order of the values. -/
def changes (values : List Str) : List (Str × Str) :=
  values.filterMap fun value => (rewriter.replacement value).map fun url => (value, url)

/-- What the loop has done along some pieces that start after `read`. -/
structure Passes (body read : Bytes) (pieces : List Piece) (before after : Splice) : Prop where
  last : after.last ≤ (read ++ encode (Piece.flat pieces)).length
  content : after.content body (read ++ encode (Piece.flat pieces)).length =
    before.content body read.length ++ encode (pieces.flatMap (rewriter.pieceText toJson))
  events : after.events.map RewriteEvent.change =
    before.events.map RewriteEvent.change ++ rewriter.changes (Piece.values pieces)
  out : after.out = none ↔
    before.out = none ∧ ∀ value ∈ Piece.values pieces, rewriter.replacement value = none

variable {rewriter toJson} {body read rest : Bytes} {state middle after : Splice}

theorem Passes.nil (ordered : state.last ≤ read.length) :
    rewriter.Passes toJson body read [] state state where
  last := by simpa using ordered
  content := by simp
  events := by simp [changes]
  out := by simp

theorem Passes.cons {piece : Piece} {pieces : List Piece}
    (first : rewriter.Passes toJson body read [piece] state middle)
    (later : rewriter.Passes toJson body (read ++ encode piece.text) pieces middle after) :
    rewriter.Passes toJson body read (piece :: pieces) state after := by
  have whole : (read ++ encode piece.text) ++ encode (Piece.flat pieces) =
      read ++ encode (Piece.flat (piece :: pieces)) := by simp
  have single : read ++ encode (Piece.flat [piece]) = read ++ encode piece.text := by simp
  have values : Piece.values (piece :: pieces) = Piece.values [piece] ++ Piece.values pieces :=
    Piece.values_append [piece] pieces
  constructor
  case last => rw [← whole]; exact later.last
  case content =>
    rw [← whole, later.content, ← single, first.content]
    simp
  case events =>
    rw [later.events, first.events, values, List.append_assoc]
    simp [changes]
  case out =>
    rw [later.out, first.out, values]
    simp [or_imp, forall_and, and_assoc]

/-- A piece that the loop leaves as it is. -/
theorem Passes.copied {piece : Piece} (split : body = read ++ (encode piece.text ++ rest))
    (ordered : state.last ≤ read.length) (same : rewriter.pieceText toJson piece = piece.text)
    (plain : ∀ value ∈ Piece.values [piece], rewriter.replacement value = none) :
    rewriter.Passes toJson body read [piece] state state where
  last := ordered.trans (by simp)
  content := by
    have here : body.drop read.length = encode piece.text ++ rest := by simp [split]
    have copied := content_copy here ordered
    rw [← List.length_append] at copied
    simpa [same] using copied
  events := by
    have none : rewriter.changes (Piece.values [piece]) = [] := by
      rw [changes, List.filterMap_eq_nil_iff]
      intro value member
      rw [plain value member, Option.map_none]
    rw [none, List.append_nil]
  out := (and_iff_left plain).symm

/-- A string that the loop replaces. -/
theorem Passes.replaced {source value : Str} {item : FoundString} {url : UrlParts}
    (parts : urlParts value = some url) (itemValue : item.value = value)
    (itemStart : item.start = read.length)
    (itemStop : item.stop = (read ++ encode (Piece.string source value).text).length) :
    rewriter.Passes toJson body read [.string source value] state {
      registry := state.registry.allow url.host url.scheme
      out := some (state.content body item.start ++ encode (toJson (rewriter.rewritten url)))
      last := item.stop
      events := state.events ++
        [⟨item.path, item.value, rewriter.rewritten url, url.scheme, url.host⟩] } := by
  have same : rewriter.replacement value = some (rewriter.rewritten url) := by
    simp [replacement, parts]
  constructor
  case last => simp [itemStop]
  case content =>
    have whole : read ++ encode (Piece.flat [.string source value]) =
        read ++ encode (Piece.string source value).text := by simp
    rw [whole, Splice.content, itemStart, itemStop]
    simp [pieceText, same]
  case events => simp [changes, same, RewriteEvent.change, itemValue]
  case out => simp [same]

variable (rewriter toJson)

/-- What the loop does along all pieces. -/
theorem splice_pieces (body : Bytes) (pieces : List Piece) :
    ∀ {read rest : Bytes} {kept : List FoundString} {state : Splice},
      body = read ++ (encode (Piece.flat pieces) ++ rest) →
      kept.map FoundString.span = Scanner.keptFrom read.length pieces →
      state.last ≤ read.length →
      ∃ state', kept.foldlM (rewriter.splice toJson body) state = some state' ∧
        rewriter.Passes toJson body read pieces state state' := by
  induction pieces with
  | nil =>
      intro read rest kept state _ spans ordered
      obtain rfl : kept = [] := by simpa using spans
      exact ⟨state, rfl, .nil ordered⟩
  | cons piece pieces ih =>
      intro read rest kept state split spans ordered
      have here : body = read ++ (encode piece.text ++ (encode (Piece.flat pieces) ++ rest)) := by
        simp [split]
      have split' : body = (read ++ encode piece.text) ++ (encode (Piece.flat pieces) ++ rest) := by
        rw [here, List.append_assoc]
      have stop : (read ++ encode piece.text).length =
          read.length + (encode piece.text).length := List.length_append
      cases piece with
      | raw text =>
          have copied : rewriter.Passes toJson body read [.raw text] state state :=
            .copied here ordered rfl (by simp)
          obtain ⟨state', ran, passes⟩ :=
            @ih _ _ kept state split' (by simpa using spans) (by omega)
          exact ⟨state', ran, copied.cons passes⟩
      | string source value =>
          cases parts : urlParts value with
          | none =>
              have same : rewriter.replacement value = none := by simp [replacement, parts]
              have copied : rewriter.Passes toJson body read [.string source value] state state :=
                .copied here ordered (by simp [pieceText, same]) (by simp [same])
              -- the scanner keeps the string or not: the loop skips it
              obtain ⟨kept', skipped, spans'⟩ : ∃ kept' : List FoundString,
                  kept.foldlM (rewriter.splice toJson body) state =
                    kept'.foldlM (rewriter.splice toJson body) state ∧
                  kept'.map FoundString.span = Scanner.keptFrom
                    (read ++ encode (Piece.string source value).text).length pieces := by
                rw [Scanner.keptFrom, Scanner.keptAt] at spans
                split at spans
                · obtain ⟨item, kept', rfl, head, tail⟩ := List.map_eq_cons_iff.mp spans
                  have itemValue : item.value = value := by
                    simpa [FoundString.span] using congrArg (·.2.2) head
                  refine ⟨kept', ?_, by rw [stop]; exact tail⟩
                  rw [List.foldlM_cons, splice_skipped rewriter toJson (by rw [itemValue, parts])]
                  rfl
                · exact ⟨kept, rfl, by rw [stop]; simpa using spans⟩
              obtain ⟨state', ran, passes⟩ := @ih _ _ _ state split' spans' (by omega)
              exact ⟨state', by rw [skipped, ran], copied.cons passes⟩
          | some url =>
              rw [Scanner.keptFrom, Scanner.keptAt, if_pos (isAbsolute_of_urlParts parts),
                List.singleton_append] at spans
              obtain ⟨item, kept', rfl, head, spans'⟩ := List.map_eq_cons_iff.mp spans
              simp only [FoundString.span, Prod.mk.injEq] at head
              obtain ⟨itemStart, itemStop, itemValue⟩ := head
              have inside : read.length ≤ body.length := by simp [split]
              rw [← stop] at itemStop spans'
              obtain ⟨next, step, replaced, last⟩ : ∃ next,
                  rewriter.splice toJson body state item = some next ∧
                    rewriter.Passes toJson body read [.string source value] state next ∧
                    next.last = item.stop :=
                ⟨_, splice_rewritten rewriter toJson (by rw [itemValue, parts])
                  (by rw [itemStart]; exact ordered) (by rw [itemStart]; exact inside),
                  .replaced parts itemValue itemStart itemStop, rfl⟩
              obtain ⟨state', ran, passes⟩ :=
                @ih _ _ kept' next split' spans' (Nat.le_of_eq (last.trans itemStop))
              refine ⟨state', ?_, replaced.cons passes⟩
              rw [List.foldlM_cons, step]
              exact ran

/-- What rewriting does to the pieces of a text that the scanner accepts. -/
theorem rewritePlaybackInfo_pieces (registry : Registry) {pieces : List Piece}
    {document : Json} (parsed : JsonText LitChars pieces document)
    (depth : document.enclosing ≤ maxDepth) :
    ∃ registry' out events,
      rewriter.rewritePlaybackInfo toJson registry (encode (Piece.flat pieces)) =
        some (registry', out, events) ∧
      events.map RewriteEvent.change = rewriter.changes (Piece.values pieces) ∧
      (out = none ↔ ∀ value ∈ Piece.values pieces, rewriter.replacement value = none) ∧
      ∀ bytes ∈ out, bytes = encode (pieces.flatMap (rewriter.pieceText toJson)) := by
  obtain ⟨kept, accepted, spans⟩ := Scanner.run_complete parsed depth
  obtain ⟨state, ran, last, content, events, out⟩ :=
    @splice_pieces rewriter toJson (encode (Piece.flat pieces)) pieces [] [] kept
      ⟨registry, none, 0, []⟩ (by simp) spans (Nat.zero_le _)
  have found : scan (Piece.flat pieces) = some kept := by simp [scan, accepted]
  simp only [rewritePlaybackInfo, decode_encode, found, spliceAll, ran, Option.bind_eq_bind,
    Option.bind_some]
  simp only [List.nil_append] at last content
  have noChange : state.out = none ↔
      ∀ value ∈ Piece.values pieces, rewriter.replacement value = none := by
    rw [out]
    simp
  cases buffer : state.out with
  | none =>
      refine ⟨state.registry, none, state.events, rfl, by simpa using events, ?_, by simp⟩
      rw [← noChange]
      simp [buffer]
  | some written =>
      have rest : bodySlice (encode (Piece.flat pieces)) state.last
          (encode (Piece.flat pieces)).length =
            some ((encode (Piece.flat pieces)).drop state.last) := by
        rw [bodySlice, if_pos ⟨last, Nat.le_refl _⟩, List.take_of_length_le (by simp)]
      refine ⟨state.registry, some (written ++ (encode (Piece.flat pieces)).drop state.last),
        state.events, by simp [rest], by simpa using events, ?_, ?_⟩
      · rw [← noChange]
        simp [buffer]
      · rintro bytes member
        rw [Option.mem_def, Option.some.injEq] at member
        subst member
        simp only [Splice.content, buffer, Option.getD_some, Option.getD_none, List.nil_append,
          List.length_nil, Nat.sub_self, List.take_zero] at content
        rw [← content, List.take_of_length_le (by simp)]

/-- Rewriting never panics. -/
theorem rewritePlaybackInfo_isSome (registry : Registry) (body : Bytes) :
    (rewriter.rewritePlaybackInfo toJson registry body).isSome := by
  cases decoded : decode body with
  | none => simp [rewritePlaybackInfo, decoded]
  | some text =>
      cases found : scan text with
      | none => simp [rewritePlaybackInfo, decoded, found]
      | some kept =>
          obtain ⟨pieces, document, rfl, parsed, depth⟩ :=
            scan_isSome_iff.mp (by rw [found]; rfl)
          obtain rfl := decode_eq_some.mp decoded
          obtain ⟨registry', out, events, ran, -⟩ :=
            rewriter.rewritePlaybackInfo_pieces toJson registry parsed depth
          rw [ran]
          rfl

/-- A body that is not UTF-8 is not rewritten, and a rewritten body is UTF-8. -/
theorem rewritePlaybackInfo_utf8 {registry registry' : Registry} {body : Bytes}
    {out : Option Bytes} {events : List RewriteEvent}
    (ran : rewriter.rewritePlaybackInfo toJson registry body = some (registry', out, events)) :
    ∀ bytes ∈ out, (∃ text, body = encode text) ∧ ∃ text, bytes = encode text := by
  cases decoded : decode body with
  | none =>
      simp only [rewritePlaybackInfo, decoded, Option.some.injEq, Prod.mk.injEq] at ran
      simp [← ran.2.1]
  | some text =>
      obtain rfl := decode_eq_some.mp decoded
      cases found : scan text with
      | none =>
          simp only [rewritePlaybackInfo, decoded, found, Option.some.injEq,
            Prod.mk.injEq] at ran
          simp [← ran.2.1]
      | some kept =>
          obtain ⟨pieces, document, rfl, parsed, depth⟩ :=
            scan_isSome_iff.mp (by rw [found]; rfl)
          obtain ⟨registry'', out', events', ran', -, -, written⟩ :=
            rewriter.rewritePlaybackInfo_pieces toJson registry parsed depth
          rw [ran', Option.some.injEq, Prod.mk.injEq, Prod.mk.injEq] at ran
          obtain ⟨-, rfl, -⟩ := ran
          exact fun bytes member => ⟨⟨_, rfl⟩, _, written bytes member⟩

/-! ## JSON texts -/

/-- The string that stands for a string value in the output document. -/
def replaceValue (value : Str) : Str := (rewriter.replacement value).getD value

/-- The contents of the literal that stands for a literal in the output. -/
def replaceSource (literal : Str → Str) (source value : Str) : Str :=
  match rewriter.replacement value with
  | some url => literal url
  | none => source

/-- The text of an edited piece. -/
theorem text_edit {literal : Str → Str}
    (printed : ∀ value, toJson value = '"' :: literal value ++ ['"']) (pieces : List Piece) :
    Piece.flat (pieces.map
        (Piece.edit (rewriter.replaceSource literal) rewriter.replaceValue)) =
      pieces.flatMap (rewriter.pieceText toJson) := by
  induction pieces with
  | nil => rfl
  | cons piece pieces ih =>
      rw [List.map_cons, Piece.flat_cons, List.flatMap_cons, ih]
      congr 1
      cases piece with
      | raw text => rfl
      | string source value =>
          cases changed : rewriter.replacement value with
          | none => simp [Piece.edit, pieceText, replaceSource, changed]
          | some url => simp [Piece.edit, pieceText, replaceSource, changed, printed]

/-- Edited literals denote the edited values. -/
theorem denotes_edit {literal : Str → Str}
    (denotes : ∀ value, Denotes (literal value) value) {source value : Str}
    (lit : Denotes source value) :
    Denotes (rewriter.replaceSource literal source value) (rewriter.replaceValue value) := by
  cases changed : rewriter.replacement value with
  | none => simpa [replaceSource, replaceValue, changed] using lit
  | some url => simpa [replaceSource, replaceValue, changed] using denotes url

/-- Rewriting a JSON text edits the rewritable string values of its document and
nothing else. -/
theorem rewritePlaybackInfo_document {toJson literal : Str → Str}
    (printed : ∀ value, toJson value = '"' :: literal value ++ ['"'])
    (denotes : ∀ value, Denotes (literal value) value) (registry : Registry)
    {pieces : List Piece} {document : Json} (parsed : JsonText Denotes pieces document)
    (depth : document.enclosing ≤ maxDepth) :
    ∃ registry' out events,
      rewriter.rewritePlaybackInfo toJson registry (encode (Piece.flat pieces)) =
        some (registry', out, events) ∧
      ((out = none ∧ events = []) ↔
        ∀ value ∈ document.strings, rewriter.rewriteUrl registry value = none) ∧
      ((∃ value ∈ document.strings, rewriter.rewriteUrl registry value ≠ none) →
        ∃ pieces', out = some (encode (Piece.flat pieces')) ∧
          pieces' = pieces.map
            (Piece.edit (rewriter.replaceSource literal) rewriter.replaceValue) ∧
          JsonText Denotes pieces' (document.mapStrings rewriter.replaceValue)) ∧
      events.map RewriteEvent.change = document.strings.filterMap fun value =>
        (rewriter.rewriteUrl registry value).map fun result => (value, result.2.1) := by
  obtain ⟨registry', out, events, ran, changed, unchanged, written⟩ :=
    rewriter.rewritePlaybackInfo_pieces toJson registry
      (parsed.mono fun _ _ lit => LitChars.of_denotes lit) depth
  rw [parsed.values] at changed unchanged
  have listed : rewriter.changes document.strings = document.strings.filterMap fun value =>
      (rewriter.rewriteUrl registry value).map fun result => (value, result.2.1) := by
    simp only [changes, replacement, rewriteUrl_eq, Option.map_map]
    rfl
  have quiet : out = none → events = [] := by
    intro none
    rw [unchanged] at none
    have nothing : rewriter.changes document.strings = [] := by
      rw [changes, List.filterMap_eq_nil_iff]
      exact fun value member => by rw [none value member, Option.map_none]
    rw [nothing, List.map_eq_nil_iff] at changed
    exact changed
  refine ⟨registry', out, events, ran, ?_, ?_, by rw [changed, listed]⟩
  · simp only [rewriteUrl_eq_none]
    rw [← unchanged]
    exact ⟨fun both => both.1, fun none => ⟨none, quiet none⟩⟩
  · rintro ⟨value, member, rewritable⟩
    refine ⟨_, ?_, rfl, parsed.edit fun _ _ lit => rewriter.denotes_edit denotes lit⟩
    rw [rewriter.text_edit toJson printed]
    cases buffer : out with
    | none =>
        exact absurd (rewriteUrl_eq_none _ |>.mpr (unchanged.mp buffer value member)) rewritable
    | some bytes => rw [written bytes buffer]

/-- An array with one URL, rewritten for a route at `http://p`. -/
theorem rewritePlaybackInfo_document_array :
    ∃ registry events,
      rewritePlaybackInfo (new ⟨"http".toList, "p".toList, [], []⟩)
          (fun value => '"' :: writeString value ++ ['"']) Registry.empty
          (encode "[\"http://h/a\"]".toList) =
        some (registry, some (encode "[\"http://p/_proxy/http/h/a\"]".toList), events) := by
  have lit : Denotes "http://h/a".toList "http://h/a".toList :=
    (by decide : writeString "http://h/a".toList = "http://h/a".toList) ▸
      denotes_writeString "http://h/a".toList
  have empty : IsWs [] := by simp [IsWs]
  have parsed : JsonText Denotes
      [.raw [], .raw ['['], .raw [], .string "http://h/a".toList "http://h/a".toList,
        .raw [], .raw [']'], .raw []] (.array [.string "http://h/a".toList]) :=
    ⟨[], _, [], empty, .array (.one empty (.string lit) empty), empty, rfl⟩
  obtain ⟨registry, out, events, ran, -, edited, -⟩ :=
    rewritePlaybackInfo_document (new ⟨"http".toList, "p".toList, [], []⟩)
      (fun _ => rfl) denotes_writeString Registry.empty parsed (by decide)
  obtain ⟨_, rfl, rfl, -⟩ := edited ⟨"http://h/a".toList, by simp [Json.strings,
    Json.stringsElements], by decide⟩
  exact ⟨registry, events, ran.trans (by rfl)⟩

end Rewriter

end Proxemby
