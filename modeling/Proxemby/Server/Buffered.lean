import Proxemby.Server.Steps
import Proxemby.Server.Reference

/-!
# Buffered answers

An answer that the proxy rewrites is read whole, decoded when it is declared to be gzip,
and sent on without a content coding.  That keeps its meaning for the codings that the
proxy undoes, and for no other.
-/

namespace Proxemby

open Text Utf8

/-! ## Frames -/

/-- The octets of the frames of a body, up to the first failure. -/
def received : List Frame → Bytes
  | [] => []
  | .data bytes :: frames => bytes ++ received frames
  | .trailers :: frames => received frames
  | .error _ :: _ => []

/-- A body whose end the proxy does not get to read. -/
def interrupted : List Frame → Bool
  | [] => false
  | .data _ :: frames => interrupted frames
  | .trailers :: frames => interrupted frames
  | .error _ :: _ => true

theorem collectFrames_interrupted {max : Nat} {buf : Bytes} {frames : List Frame}
    (failed : interrupted frames = true) : ∃ e, collectFrames max buf frames = .error e := by
  induction frames generalizing buf with
  | nil => cases failed
  | cons frame frames ih =>
      cases frame with
      | data bytes =>
          rw [collectFrames]
          split
          · exact ⟨_, rfl⟩
          · exact ih failed
      | trailers => exact ih failed
      | error message => exact ⟨_, rfl⟩

/-- The frame loop sees the octets of the frames, not where they are cut. -/
theorem collectFrames_eq {max : Nat} {buf : Bytes} {frames : List Frame}
    (whole : interrupted frames = false) (fits : buf.length ≤ max) :
    collectFrames max buf frames =
      if buf.length + (received frames).length > max then .error .tooLarge
      else .ok (buf ++ received frames) := by
  induction frames generalizing buf with
  | nil => simp [collectFrames, received, fits]
  | cons frame frames ih =>
      cases frame with
      | data bytes =>
          rw [collectFrames, received]
          by_cases large : buf.length + bytes.length > max
          · rw [if_pos large, if_pos (by rw [List.length_append]; omega)]
          · rw [if_neg large, ih whole (by rw [List.length_append]; omega), List.length_append,
              List.length_append, List.append_assoc, Nat.add_assoc]
      | trailers => exact ih whole fits
      | error message => cases whole

/-! ## Content codings -/

/-- The codings of a body, in the order in which they were applied. -/
def HeaderMap.codings (headers : HeaderMap) : List HeaderValue :=
  headers.getAll "content-encoding".toList

/-- No coding was applied. -/
def isPlain (codings : List HeaderValue) : Bool :=
  codings.all fun value =>
    value = [] || eqIgnoreAsciiCaseBytes value (encode "identity".toList)

/-- The one coding is gzip, in any case. -/
def isGzip : List HeaderValue → Bool
  | [value] => eqIgnoreAsciiCaseBytes value (encode "gzip".toList)
  | _ => false

theorem not_gzip_of_plain {value : HeaderValue}
    (plain : value = [] ∨ eqIgnoreAsciiCaseBytes value (encode "identity".toList) = true) :
    eqIgnoreAsciiCaseBytes value (encode "gzip".toList) = false := by
  rcases plain with rfl | identity
  · decide
  · rw [eqIgnoreAsciiCaseBytes, beq_iff_eq] at identity
    rw [eqIgnoreAsciiCaseBytes, identity]
    decide

variable (crates : Crates)

/-- The gzip decoder on a whole body. -/
def Crates.gunzipWhole (body : Bytes) : Option Bytes :=
  match (crates.gunzip body).2 with
  | none => some (crates.gunzip body).1
  | some _ => none

/-- How to undo the codings of a body: nothing is to be undone when there are none, gzip is
undone by the decoder, and any other list of codings may mean anything. -/
structure Codings where
  undo : List HeaderValue → Bytes → Option Bytes
  plain : ∀ codings body, isPlain codings = true → undo codings body = some body
  gzip : ∀ codings body, isGzip codings = true → undo codings body = crates.gunzipWhole body

/-- With a meaning for the other lists of codings. -/
def Codings.other (meaning : List HeaderValue → Bytes → Option Bytes) : Codings crates where
  undo codings body :=
    if isPlain codings then some body
    else if isGzip codings then crates.gunzipWhole body
    else meaning codings body
  plain codings body plain := by rw [if_pos plain]
  gzip codings body gzip := by
    have notPlain : isPlain codings = false := by
      match codings with
      | [value] =>
          rw [← Bool.not_eq_true]
          intro plain
          simp only [isPlain, List.all_cons, List.all_nil, Bool.and_true, Bool.or_eq_true,
            decide_eq_true_eq] at plain
          rw [isGzip, not_gzip_of_plain plain] at gzip
          cases gzip
    rw [notPlain, if_neg (by decide), if_pos gzip]

/-- Nobody can undo another coding. -/
def Codings.unknown : Codings crates := .other crates fun _ _ => none

/-- The proxy takes a body for gzip. -/
def Reply.decodesGzip (reply : Reply) : Bool :=
  reply.headers.codings.head?.any fun value =>
    eqIgnoreAsciiCaseBytes value (encode "gzip".toList)

namespace RouteProxy

variable (proxy : RouteProxy)

/-- The most octets that `read_body` takes. -/
def maxBytes : Nat := (max proxy.cfg.playbackinfoMaxBytes 1).toNat

/-- What makes `read_body` give up: the body breaks off or is too large, or it is declared to
be gzip and cannot be decoded, or is too large then. -/
def Unreadable (reply : Reply) : Prop :=
  interrupted reply.frames = true ∨ proxy.maxBytes < (received reply.frames).length ∨
    reply.decodesGzip = true ∧
      (proxy.maxBytes < (crates.gunzip (received reply.frames)).1.length ∨
        crates.gunzipWhole (received reply.frames) = none)

variable {crates proxy}

/-- What `read_body` does with a body that it gets to the end of. -/
theorem readBody_whole {reply : Reply} (whole : interrupted reply.frames = false) :
    proxy.readBody crates reply =
      if proxy.maxBytes < (received reply.frames).length then .error .tooLarge
      else if reply.decodesGzip then
        if proxy.maxBytes < (crates.gunzip (received reply.frames)).1.length then
          .error .tooLarge
        else
          match (crates.gunzip (received reply.frames)).2 with
          | some message => .error (.read message)
          | none => .ok (crates.gunzip (received reply.frames)).1
      else .ok (received reply.frames) := by
  rw [readBody, ← maxBytes, collectFrames_eq whole (Nat.zero_le _), List.length_nil,
    Nat.zero_add, List.nil_append]
  by_cases large : proxy.maxBytes < (received reply.frames).length
  · rw [if_pos large, if_pos large]
  · rw [if_neg large, if_neg large]
    change (if (!reply.decodesGzip) = true then _ else _) = _
    cases reply.decodesGzip <;> rfl

theorem readBody_of_unreadable {reply : Reply} (unreadable : proxy.Unreadable crates reply) :
    ∃ e, proxy.readBody crates reply = .error e := by
  cases failed : interrupted reply.frames with
  | true =>
      obtain ⟨e, error⟩ := @collectFrames_interrupted proxy.maxBytes [] _ failed
      exact ⟨e, by rw [readBody, ← maxBytes, error]⟩
  | false =>
      rw [readBody_whole failed]
      obtain broken | large | ⟨gzip, packed⟩ := unreadable
      · rw [failed] at broken
        cases broken
      · exact ⟨_, if_pos large⟩
      · rw [if_pos gzip]
        cases failure : (crates.gunzip (received reply.frames)).2 with
        | some message => split_ifs <;> exact ⟨_, rfl⟩
        | none =>
            have large := packed.resolve_right (by simp [Crates.gunzipWhole, failure])
            exact ⟨.tooLarge, by rw [if_pos large, ite_self]⟩

theorem whole_of_readable {reply : Reply} (readable : ¬proxy.Unreadable crates reply) :
    interrupted reply.frames = false := by
  rw [Unreadable, not_or, Bool.not_eq_true] at readable
  exact readable.1

/-- What `read_body` gives. -/
theorem readBody_of_readable {reply : Reply} (readable : ¬proxy.Unreadable crates reply) :
    ∃ body, proxy.readBody crates reply = .ok body ∧
      (if reply.decodesGzip then crates.gunzipWhole (received reply.frames)
        else some (received reply.frames)) = some body := by
  rw [Unreadable, not_or, not_or, Bool.not_eq_true] at readable
  obtain ⟨whole, fits, decodes⟩ := readable
  rw [readBody_whole whole, if_neg fits]
  cases gzip : reply.decodesGzip with
  | false => exact ⟨_, rfl, rfl⟩
  | true =>
      rw [not_and, not_or] at decodes
      obtain ⟨small, packed⟩ := decodes gzip
      rw [if_pos rfl, if_pos rfl, if_neg small]
      rw [Crates.gunzipWhole] at packed ⊢
      cases failure : (crates.gunzip (received reply.frames)).2 with
      | none => exact ⟨_, rfl, rfl⟩
      | some message => exact absurd (by rw [failure]) packed

/-! ## The rewritten answer -/

/-- The answer keeps the meaning of the one of the upstream.  It is a plain 502, or undoing the
codings that each of the two declares gives the rewritten body of the one and the body of the
other. -/
def KeepsMeaning (codings : Codings crates) (registry : Registry) (reply : Reply)
    (response : Response) : Prop :=
  response = emptyResponse 502 ∨
    ∃ original body, interrupted reply.frames = false ∧
      codings.undo reply.headers.codings (received reply.frames) = some original ∧
      response.body = .full body ∧
      codings.undo response.headers.codings body =
        some (proxy.rewrittenBody crates registry original) ∧
      response.headers.getAll "content-length".toList = [encode (Nat.repr body.length).toList]

variable (crates proxy) in
/-- The outcome is the same for any other cut of the same body into frames. -/
def IgnoresCuts (world : World) (env : Env) (task : UpstreamTask) (reply : Reply) : Prop :=
  ∀ frames, received frames = received reply.frames →
    interrupted frames = interrupted reply.frames →
    proxy.upstreamReply crates world env task (.reply { reply with frames }) =
      proxy.upstreamReply crates world env task (.reply reply)

theorem rewritePlaybackInfo_of_error {reply : Reply} {e : BodyError}
    (failed : proxy.readBody crates reply = .error e) (world : World) :
    proxy.rewritePlaybackInfo crates world reply = ⟨world, emptyResponse 502, []⟩ := by
  rw [rewritePlaybackInfo, failed]

theorem rewritePlaybackInfo_of_ok {reply : Reply} {body : Bytes}
    (read : proxy.readBody crates reply = .ok body) (world : World) :
    (proxy.rewritePlaybackInfo crates world reply).response =
      fullResponse reply (proxy.rewrittenBody crates world.registry body) := by
  rw [rewritePlaybackInfo, read]
  rfl

theorem rewritePlaybackInfo_frames {reply : Reply} {frames : List Frame}
    (same : received frames = received reply.frames)
    (ends : interrupted frames = interrupted reply.frames) (world : World) :
    proxy.rewritePlaybackInfo crates world { reply with frames } =
      proxy.rewritePlaybackInfo crates world reply := by
  cases failed : interrupted reply.frames with
  | true =>
      obtain ⟨e, error⟩ := @readBody_of_unreadable crates proxy reply (.inl failed)
      obtain ⟨e', error'⟩ := @readBody_of_unreadable crates proxy { reply with frames }
        (.inl (ends.trans failed))
      rw [rewritePlaybackInfo_of_error error, rewritePlaybackInfo_of_error error']
  | false =>
      have equal : proxy.readBody crates { reply with frames } =
          proxy.readBody crates reply := by
        rw [readBody_whole failed, readBody_whole (ends.trans failed)]
        simp only [same]
        rfl
      rw [rewritePlaybackInfo, rewritePlaybackInfo, equal]
      rfl

/-- A buffered answer declares its length and no coding. -/
theorem codings_fullResponse (reply : Reply) (body : Bytes) :
    (fullResponse reply body).headers.codings = [] := by
  simp [fullResponse, setFullBody, HeaderMap.codings]

theorem length_fullResponse (reply : Reply) (body : Bytes) :
    (fullResponse reply body).headers.getAll "content-length".toList =
      [encode (Nat.repr body.length).toList] := by
  have other : "content-length".toList ≠ "content-encoding".toList := by decide
  simp only [fullResponse, setFullBody, HeaderMap.getAll_remove, HeaderMap.getAll_insert,
    if_neg other, ↓reduceIte]

/-- A buffered answer keeps its meaning when what was read is rewritten to the same as what
was sent. -/
theorem keepsMeaning_fullResponse {codings : Codings crates} {registry : Registry}
    {reply reply' : Reply} (whole : interrupted reply.frames = false) {body : Bytes} :
    proxy.KeepsMeaning codings registry reply
        (fullResponse reply' (proxy.rewrittenBody crates registry body)) ↔
      ∃ original, codings.undo reply.headers.codings (received reply.frames) = some original ∧
        proxy.rewrittenBody crates registry body =
          proxy.rewrittenBody crates registry original := by
  constructor
  · rintro (absurd | ⟨original, sent, -, undone, full, same, -⟩)
    · have bodies := congrArg Response.body absurd
      cases bodies
    · cases full
      rw [codings_fullResponse, codings.plain [] _ rfl, Option.some.injEq] at same
      exact ⟨original, undone, same⟩
  · rintro ⟨original, undone, same⟩
    refine .inr ⟨original, _, whole, undone, rfl, ?_, length_fullResponse reply' _⟩
    rw [codings_fullResponse, codings.plain [] _ rfl, same]

/-- Octets that are not UTF-8 are rewritten to themselves, and nothing else is rewritten to
them. -/
theorem rewrittenBody_eq_of_decode {registry : Registry} {packed original : Bytes}
    (binary : decode packed = none)
    (same : proxy.rewrittenBody crates registry packed =
      proxy.rewrittenBody crates registry original) : packed = original := by
  have each : ∀ body, proxy.rewrittenBody crates registry body = body ∨
      (∃ text, body = encode text) ∧
        ∃ text, proxy.rewrittenBody crates registry body = encode text := by
    intro body
    obtain ⟨⟨registry', out, events⟩, ran⟩ := Option.isSome_iff_exists.mp
      (proxy.rewriter.rewritePlaybackInfo_isSome crates.toJson registry body)
    simp only [rewrittenBody, ran, Option.get_some]
    cases out with
    | none => exact .inl rfl
    | some bytes => exact .inr (proxy.rewriter.rewritePlaybackInfo_utf8 crates.toJson ran _ rfl)
  have notText : ¬∃ text, packed = encode text := by
    rintro ⟨text, rfl⟩
    rw [decode_encode] at binary
    cases binary
  rw [(each packed).resolve_right fun written => notText written.1] at same
  rcases each original with unchanged | ⟨-, text, written⟩
  · rw [same, unchanged]
  · exact absurd ⟨text, same.trans written⟩ notText

end RouteProxy

/-! ## Which answers keep their meaning -/

/-- The headers of an answer that go on to the client. -/
def Reply.endToEnd (reply : Reply) : Reply :=
  { reply with headers := removeHopByHop reply.headers }

theorem Reply.endToEnd_frames (reply : Reply) : reply.endToEnd.frames = reply.frames := by
  rw [endToEnd]

/-- A body that starts like a gzip member: those are the only ones that the decoder takes. -/
def Crates.ChecksMagic (crates : Crates) : Prop :=
  ∀ body decoded, crates.gunzip body = (decoded, none) → ∃ rest, body = 0x1F :: 0x8B :: rest

/-- The proxy undoes the codings of an answer: there are none, or the one is gzip and is not
dropped with the headers that `Connection` names.  Where it is dropped, the body has to be its
own gzip form. -/
def Reply.Understood (reply : Reply) : Prop :=
  isPlain reply.headers.codings = true ∨
    isGzip reply.headers.codings = true ∧
      (reply.endToEnd.headers.codings ≠ [] ∨
        crates.gunzipWhole (received reply.frames) = some (received reply.frames))

variable {crates}

theorem codings_endToEnd (reply : Reply) :
    reply.endToEnd.headers.codings = reply.headers.codings ∨
      reply.endToEnd.headers.codings = [] := by
  have other : "content-encoding".toList ∉ hopByHop := by decide
  rw [Reply.endToEnd, HeaderMap.codings, HeaderMap.codings, removeHopByHop,
    HeaderMap.getAll_removeAll, HeaderMap.getAll_removeAll, if_neg other]
  split
  · exact .inr rfl
  · exact .inl rfl

theorem decodesGzip_of_plain {reply : Reply} (plain : isPlain reply.headers.codings = true) :
    reply.decodesGzip = false := by
  rw [Reply.decodesGzip]
  cases codings : reply.headers.codings with
  | nil => rfl
  | cons value rest =>
      simp only [codings, isPlain, List.all_cons, Bool.and_eq_true, Bool.or_eq_true,
        decide_eq_true_eq] at plain
      exact not_gzip_of_plain plain.1

theorem decodesGzip_of_gzip {reply : Reply} (gzip : isGzip reply.headers.codings = true) :
    reply.decodesGzip = true := by
  rw [Reply.decodesGzip]
  match codings : reply.headers.codings with
  | [] =>
      rw [codings] at gzip
      cases gzip
  | [value] =>
      rw [codings] at gzip
      exact gzip
  | _ :: _ :: _ =>
      rw [codings] at gzip
      cases gzip

/-- A body that the gzip decoder takes is no text. -/
theorem decode_of_gunzipWhole (magic : crates.ChecksMagic) {packed original : Bytes}
    (unpacked : crates.gunzipWhole packed = some original) : decode packed = none := by
  rw [Crates.gunzipWhole] at unpacked
  split at unpacked
  · next ended =>
      obtain ⟨rest, rfl⟩ := magic packed _ (Prod.ext rfl ended)
      simp [decode, decodeAll, decodeUpTo, decodeOne]
  · cases unpacked

namespace RouteProxy

variable {proxy : RouteProxy}

theorem keepsMeaning_of_understood {registry : Registry} {reply : Reply}
    (readable : ¬proxy.Unreadable crates reply.endToEnd) {body : Bytes}
    (read : (if reply.endToEnd.decodesGzip then crates.gunzipWhole (received reply.frames)
      else some (received reply.frames)) = some body)
    (understood : reply.Understood crates) (codings : Codings crates) :
    proxy.KeepsMeaning codings registry reply
      (fullResponse reply.endToEnd (proxy.rewrittenBody crates registry body)) := by
  have whole := whole_of_readable readable
  rw [Reply.endToEnd_frames] at whole
  rw [keepsMeaning_fullResponse whole]
  obtain plain | ⟨gzip, kept⟩ := understood
  · have undecoded : reply.endToEnd.decodesGzip = false := by
      apply decodesGzip_of_plain
      rcases codings_endToEnd reply with same | none
      · rw [same, plain]
      · rw [none]
        rfl
    rw [undecoded, if_neg (by decide), Option.some.injEq] at read
    exact ⟨_, codings.plain _ _ plain, by rw [read]⟩
  · refine ⟨body, ?_, rfl⟩
    rw [codings.gzip _ _ gzip, ← read]
    split
    · rfl
    · next undecoded =>
        refine kept.resolve_left fun kept => undecoded ?_
        have same := (codings_endToEnd reply).resolve_right kept
        exact decodesGzip_of_gzip (by rw [same, gzip])

theorem understood_of_keepsMeaning (magic : crates.ChecksMagic) {registry : Registry}
    {reply : Reply} (readable : ¬proxy.Unreadable crates reply.endToEnd) {body : Bytes}
    (read : (if reply.endToEnd.decodesGzip then crates.gunzipWhole (received reply.frames)
      else some (received reply.frames)) = some body)
    (keeps : proxy.KeepsMeaning (Codings.unknown crates) registry reply
      (fullResponse reply.endToEnd (proxy.rewrittenBody crates registry body))) :
    reply.Understood crates := by
  have whole := whole_of_readable readable
  rw [Reply.endToEnd_frames] at whole
  rw [keepsMeaning_fullResponse whole] at keeps
  obtain ⟨original, undone, same⟩ := keeps
  by_cases plain : isPlain reply.headers.codings = true
  · exact .inl plain
  · by_cases gzip : isGzip reply.headers.codings = true
    · refine .inr ⟨gzip, or_iff_not_imp_left.mpr fun dropped => ?_⟩
      rw [not_not] at dropped
      have undecoded : reply.endToEnd.decodesGzip = false :=
        decodesGzip_of_plain (by rw [dropped]; rfl)
      rw [undecoded, if_neg (by decide), Option.some.injEq] at read
      rw [(Codings.unknown crates).gzip _ _ gzip] at undone
      rw [← read] at same
      rw [undone, rewrittenBody_eq_of_decode (decode_of_gunzipWhole magic undone) same]
    · simp [Codings.unknown, Codings.other, plain, gzip] at undone

/-- Buffered answers keep their meaning, whatever the codings mean that the proxy does not
know, exactly when the proxy refuses the body or undoes its codings.  Where the body is cut
into frames never matters. -/
theorem buffered_response_iff (magic : crates.ChecksMagic) {world : World} {env : Env}
    {task : UpstreamTask} {reply : Reply} (path : isPlaybackInfoPath task.req.path = true)
    (notLogin : world.auth.isSome = true → isLoginPath task.req.path = false)
    (status : reply.status ≠ 101)
    (json : isJsonContentType (removeHopByHop reply.headers) = true) :
    ((∀ codings : Codings crates, proxy.KeepsMeaning codings world.registry reply
        (proxy.upstreamReply crates world env task (.reply reply)).response) ∧
      proxy.IgnoresCuts crates world env task reply) ↔
    proxy.Unreadable crates reply.endToEnd ∨ reply.Understood crates := by
  -- the frames have no part in which branch is taken
  have buffered (frames : List Frame) :
      proxy.upstreamReply crates world env task (.reply { reply with frames }) =
        proxy.rewritePlaybackInfo crates world { reply.endToEnd with frames } :=
    proxy.upstreamReply_buffered crates env path notLogin status json
  have own : proxy.upstreamReply crates world env task (.reply reply) =
      proxy.rewritePlaybackInfo crates world reply.endToEnd := buffered reply.frames
  have cuts : proxy.IgnoresCuts crates world env task reply := by
    intro frames same ends
    rw [buffered frames, own]
    rw [← Reply.endToEnd_frames reply] at same ends
    exact rewritePlaybackInfo_frames same ends world
  rw [and_iff_left cuts, own]
  by_cases unreadable : proxy.Unreadable crates reply.endToEnd
  · obtain ⟨e, failed⟩ := readBody_of_unreadable unreadable
    rw [rewritePlaybackInfo_of_error failed]
    exact iff_of_true (fun codings => .inl rfl) (.inl unreadable)
  · obtain ⟨body, read, decoded⟩ := readBody_of_readable unreadable
    rw [Reply.endToEnd_frames] at decoded
    rw [rewritePlaybackInfo_of_ok read, or_iff_right unreadable]
    constructor
    · intro keeps
      exact understood_of_keepsMeaning magic unreadable decoded (keeps (Codings.unknown crates))
    · intro understood codings
      exact keepsMeaning_of_understood unreadable decoded understood codings

/-- The route of the examples. -/
def referenceRoute : RouteProxy :=
  .new Reference.crates (Reference.config ["ken"] []) Reference.route (some Reference.store)

/-- A PlaybackInfo request that waits for its answer. -/
def playbackTask : UpstreamTask where
  req := Reference.request .post "/emby/Items/1/PlaybackInfo" none []
  outPath := "/emby/Items/1/PlaybackInfo".toList
  requestUpgrade := none
  logout := none

/-- What `playbackTask` sees. -/
def playbackWorld : World := (Reference.start (Reference.config ["ken"] [])).world "proxemby".toList

/-- A JSON answer with some codings. -/
def jsonReply (codings : List String) (frames : List Frame) : Reply where
  status := 200
  headers := ⟨("content-type".toList, encode "application/json".toList) ::
    codings.map fun coding => ("content-encoding".toList, encode coding.toList)⟩
  frames

/-- An answer without a coding, in two frames. -/
def plainReply : Reply :=
  jsonReply [] [.data (Reference.playbackBody.take 9), .data (Reference.playbackBody.drop 9)]

/-- It keeps its meaning. -/
theorem buffered_response_iff_plain :
    (∀ codings : Codings Reference.crates, referenceRoute.KeepsMeaning codings
      playbackWorld.registry plainReply
      (referenceRoute.upstreamReply Reference.crates playbackWorld Reference.env playbackTask
        (.reply plainReply)).response) ∧
      referenceRoute.IgnoresCuts Reference.crates playbackWorld Reference.env playbackTask
        plainReply := by
  have magic : Reference.crates.ChecksMagic := by
    rintro body decoded ⟨⟩
  exact (buffered_response_iff magic (by decide +kernel) (fun _ => by decide +kernel)
    (by decide) (by decide +kernel)).mpr (.inr (.inl (by decide +kernel)))

/-- An empty object under Brotli. -/
def brotliBody : Bytes := [0x8B, 0x00, 0x80, 0x7B, 0x7D, 0x03]

def brotli : Codings Reference.crates :=
  .other Reference.crates fun codings body =>
    if codings = [encode "br".toList] ∧ body = brotliBody then some (encode "\x7b\x7d".toList)
    else none

/-- The client gets the octets of Brotli without their coding. -/
theorem brotli_answer_loses_coding :
    isPlaybackInfoPath playbackTask.req.path = true ∧
    isJsonContentType (jsonReply ["br"] [.data brotliBody]).headers = true ∧
    brotli.undo [encode "br".toList] brotliBody = some (encode "\x7b\x7d".toList) ∧
    ¬referenceRoute.KeepsMeaning brotli playbackWorld.registry
      (jsonReply ["br"] [.data brotliBody])
      (referenceRoute.upstreamReply Reference.crates playbackWorld Reference.env playbackTask
        (.reply (jsonReply ["br"] [.data brotliBody]))).response := by
  refine ⟨by decide +kernel, by decide +kernel, by decide +kernel, ?_⟩
  have response : (referenceRoute.upstreamReply Reference.crates playbackWorld Reference.env
      playbackTask (.reply (jsonReply ["br"] [.data brotliBody]))).response =
        fullResponse (jsonReply [] []) brotliBody := by
    decide +kernel
  rw [response]
  rintro (absurd | ⟨original, body, -, sent, full, same, -⟩)
  · cases absurd
  · cases full
    have undone : brotli.undo (jsonReply ["br"] [.data brotliBody]).headers.codings
        (received (jsonReply ["br"] [.data brotliBody]).frames) =
          some (encode "\x7b\x7d".toList) := by
      decide +kernel
    rw [undone, Option.some.injEq] at sent
    subst sent
    rw [codings_fullResponse, brotli.plain [] _ rfl] at same
    revert same
    decide +kernel

end RouteProxy

end Proxemby
