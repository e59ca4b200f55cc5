import Mathlib.Algebra.BigOperators.Group.List.Basic
import Proxemby.Http
import Proxemby.Stats.Counters

/-!
# Streamed bodies

`ProxyBody` of `src/server/body.rs`.  A body from the network is the frames that are still
to come; a poll of it yields the next one when it has arrived.  What polls and drops do
besides, to the counters and to whoever waits for the end, is a list of effects.
-/

namespace Proxemby

/-- The frames that proxemby reads out of a body, as octets of data. -/
def Frame.dataLength : Frame → Nat
  | .data bytes => bytes.length
  | _ => 0

/-- What a poll of a body finds: nothing yet, a frame, or the end. -/
inductive Poll where
  | pending
  | ready (frame : Option Frame)
  deriving DecidableEq

namespace Poll

/-- The frame that a poll yields. -/
def frame? : Poll → Option Frame
  | .pending => none
  | .ready frame => frame

/-- The length of the data that a poll yields. -/
def dataLength (poll : Poll) : Nat := (poll.frame?.map Frame.dataLength).getD 0

end Poll

/-- Bounds on the length of the data that is still to come. -/
structure SizeHint where
  lower : Nat
  upper : Option Nat
  deriving DecidableEq

def SizeHint.withExact (length : Nat) : SizeHint := ⟨length, some length⟩

/-- What hyper says of a body from the network before it has been read. -/
structure Hints where
  isEndStream : List Frame → Bool
  sizeHint : List Frame → SizeHint

/-- The contract of `http_body::Body`: a body that says it has ended yields no frame, and
the bounds are those of the data to come, the lower one if nothing fails. -/
structure Hints.Documented (hints : Hints) : Prop where
  ended : ∀ frames, hints.isEndStream frames = true → frames = []
  upper : ∀ frames bound, (hints.sizeHint frames).upper = some bound →
    (frames.map Frame.dataLength).sum ≤ bound
  lower : ∀ frames, (∀ message, .error message ∉ frames) →
    (hints.sizeHint frames).lower ≤ (frames.map Frame.dataLength).sum

/-- Adds streamed octets to the counters of one route and kind.  A response meter also
counts the response as active until the body is dropped. -/
structure Meter (κ : Type) where
  counters : κ
  response : Bool
  deriving DecidableEq

/-- What a body does to others: an update of some counters, or the call at the end of a
counted body. -/
inductive Effect (κ δ : Type) where
  | update (counters : κ) (update : Update)
  | done (onDone : δ) (bytes : Nat)
  deriving DecidableEq

variable {κ δ : Type}

namespace Meter

/-- Meters a request body received from a client. -/
def forRequest (counters : κ) : Meter κ × List (Effect κ δ) := (⟨counters, false⟩, [])

/-- Meters a response body sent to a client. -/
def forResponse (counters : κ) : Meter κ × List (Effect κ δ) :=
  (⟨counters, true⟩, [.update counters .streamStarted])

def add (meter : Meter κ) (bytes : Nat) : Effect κ δ :=
  .update meter.counters (if meter.response then .addBytesOut bytes else .addBytesIn bytes)

def drop (meter : Meter κ) : List (Effect κ δ) :=
  if meter.response then [.update meter.counters .streamFinished] else []

end Meter

/-- The body of a request or response.  A counted body calls `onDone` when it is dropped. -/
inductive ProxyBody (κ δ : Type) where
  | incoming (frames : List Frame)
  | metered (frames : List Frame) (meter : Meter κ)
  | full (data : Option Bytes)
  | empty
  | counted (inner : ProxyBody κ δ) (bytes : Nat) (onDone : Option δ)

/-- A poll of a body from the network. -/
def pollIncoming (arrived : Bool) (frames : List Frame) : Poll × List Frame :=
  if arrived then (.ready frames.head?, frames.tail) else (.pending, frames)

namespace ProxyBody

/-- A body that is counted from here on. -/
def count (inner : ProxyBody κ δ) (onDone : δ) : ProxyBody κ δ := .counted inner 0 (some onDone)

def pollFrame (arrived : Bool) : ProxyBody κ δ → Poll × ProxyBody κ δ × List (Effect κ δ)
  | .incoming frames =>
      let (poll, frames) := pollIncoming arrived frames
      (poll, .incoming frames, [])
  | .metered frames meter =>
      let (poll, frames) := pollIncoming arrived frames
      (poll, .metered frames meter,
        match poll with
        | .ready (some (.data bytes)) => [meter.add bytes.length]
        | _ => [])
  | .full data => (.ready ((data.filter (· ≠ [])).map .data), .full none, [])
  | .empty => (.ready none, .empty, [])
  | .counted inner bytes onDone =>
      let (poll, inner, effects) := inner.pollFrame arrived
      (poll, .counted inner (bytes + poll.dataLength) onDone, effects)

def isEndStream (hints : Hints) : ProxyBody κ δ → Bool
  | .incoming frames => hints.isEndStream frames
  | .metered frames _ => hints.isEndStream frames
  | .full data => data.all (· = [])
  | .empty => true
  | .counted inner _ _ => inner.isEndStream hints

def sizeHint (hints : Hints) : ProxyBody κ δ → SizeHint
  | .incoming frames => hints.sizeHint frames
  | .metered frames _ => hints.sizeHint frames
  | .full data => .withExact ((data.map List.length).getD 0)
  | .empty => .withExact 0
  | .counted inner _ _ => inner.sizeHint hints

/-- A body that is dropped: a counted one calls back before its inner body goes. -/
def drop : ProxyBody κ δ → List (Effect κ δ)
  | .metered _ meter => meter.drop
  | .counted inner bytes onDone =>
      (onDone.map fun call => .done call bytes).toList ++ inner.drop
  | _ => []

/-- Some polls in a row. -/
def polls (body : ProxyBody κ δ) : List Bool → List Poll × ProxyBody κ δ × List (Effect κ δ)
  | [] => ([], body, [])
  | arrived :: arrivals =>
      let (poll, next, effects) := body.pollFrame arrived
      let (rest, last, more) := next.polls arrivals
      (poll :: rest, last, effects ++ more)

/-! ## What a body still holds -/

/-- The frames that a body will yield. -/
def frames : ProxyBody κ δ → List Frame
  | .incoming frames => frames
  | .metered frames _ => frames
  | .full data => ((data.filter (· ≠ [])).map .data).toList
  | .empty => []
  | .counted inner _ _ => inner.frames

/-- The meter of a body, under any number of counts. -/
def meter? : ProxyBody κ δ → Option (Meter κ)
  | .metered _ meter => some meter
  | .counted inner _ _ => inner.meter?
  | _ => none

/-- The calls that a body owes, each with the count so far. -/
def counting : ProxyBody κ δ → List (δ × Nat)
  | .counted inner bytes onDone => (onDone.map (·, bytes)).toList ++ inner.counting
  | _ => []

end ProxyBody

/-- The counter that a meter adds to. -/
def Meter.field (meter : Meter κ) : Field := if meter.response then .bytesOut else .bytesIn

namespace Effect

/-- The call that an effect is, with its count. -/
def completion? : Effect κ δ → Option (δ × Nat)
  | .update _ _ => none
  | .done onDone bytes => some (onDone, bytes)

variable [DecidableEq κ]

/-- What an effect adds to a counter. -/
def amount (counters : κ) (field : Field) : Effect κ δ → Nat
  | .update other change => if other = counters then change.amount field else 0
  | .done _ _ => 0

/-- What an effect does to the active streams of some counters. -/
def flow (counters : κ) : Effect κ δ → Int
  | .update other change => if other = counters then change.flow else 0
  | .done _ _ => 0

end Effect

/-! ## Polls -/

/-- What some polls do: they take frames off the front, add the length of their data to
the one counter of the meter and to every count, and call nobody. -/
structure Streamed [DecidableEq κ] (body : ProxyBody κ δ) (polls : List Poll)
    (rest : ProxyBody κ δ) (effects : List (Effect κ δ)) : Prop where
  frames : polls.filterMap Poll.frame? ++ rest.frames = body.frames
  ended : .ready none ∈ polls → rest.frames = []
  meter : rest.meter? = body.meter?
  amount : ∀ counters field, (effects.map (Effect.amount counters field)).sum =
    if body.meter?.any (fun meter => meter.counters = counters ∧ meter.field = field) then
      (polls.map Poll.dataLength).sum
    else 0
  flow : ∀ counters, ∀ effect ∈ effects, effect.flow counters = 0
  completions : effects.filterMap Effect.completion? = []
  counting : rest.counting =
    body.counting.map fun call => (call.1, call.2 + (polls.map Poll.dataLength).sum)

namespace Streamed

variable [DecidableEq κ] {body next rest : ProxyBody κ δ} {polls more : List Poll}
  {effects later : List (Effect κ δ)}

theorem nil (body : ProxyBody κ δ) : Streamed body [] body [] where
  frames := rfl
  ended := by simp
  meter := rfl
  amount counters field := by simp
  flow counters := by simp
  completions := rfl
  counting := by simp

theorem append (first : Streamed body polls next effects) (second : Streamed next more rest later) :
    Streamed body (polls ++ more) rest (effects ++ later) where
  frames := by
    rw [List.filterMap_append, List.append_assoc, second.frames, first.frames]
  ended := by
    intro member
    rcases List.mem_append.mp member with early | late
    · have all := second.frames
      rw [first.ended early] at all
      exact (List.append_eq_nil_iff.mp all).2
    · exact second.ended late
  meter := second.meter.trans first.meter
  amount counters field := by
    rw [List.map_append, List.sum_append, first.amount, second.amount, first.meter]
    split <;> simp
  flow counters effect member := by
    rcases List.mem_append.mp member with early | late
    · exact first.flow counters effect early
    · exact second.flow counters effect late
  completions := by
    rw [List.filterMap_append, first.completions, second.completions, List.append_nil]
  counting := by
    rw [second.counting, first.counting, List.map_map]
    simp [Function.comp_def, Nat.add_assoc]

end Streamed

namespace ProxyBody

variable [DecidableEq κ]

/-- A poll of a body from the network: the next frame has not arrived, there is none, or it
is taken off. -/
theorem pollIncoming_cases (arrived : Bool) (frames : List Frame) :
    pollIncoming arrived frames = (.pending, frames) ∨
      frames = [] ∧ pollIncoming arrived frames = (.ready none, []) ∨
      ∃ frame rest, frames = frame :: rest ∧
        pollIncoming arrived frames = (.ready (some frame), rest) := by
  cases arrived with
  | false => exact .inl rfl
  | true =>
      cases frames with
      | nil => exact .inr (.inl ⟨rfl, rfl⟩)
      | cons frame rest => exact .inr (.inr ⟨frame, rest, rfl, rfl⟩)

theorem streamed_incoming (arrived : Bool) (frames : List Frame) :
    Streamed (κ := κ) (δ := δ) (.incoming frames) [(pollIncoming arrived frames).1]
      (.incoming (pollIncoming arrived frames).2) [] := by
  rcases pollIncoming_cases arrived frames with same | ⟨rfl, same⟩ | ⟨frame, rest, rfl, same⟩ <;>
    rw [same] <;>
    constructor <;>
    simp [ProxyBody.frames, meter?, counting, Poll.frame?]

/-- A metered body adds the data of a frame to its counters, and nothing otherwise. -/
theorem streamed_metered (arrived : Bool) (frames : List Frame) (meter : Meter κ) :
    Streamed (δ := δ) (.metered frames meter) [(pollIncoming arrived frames).1]
      (.metered (pollIncoming arrived frames).2 meter)
      (match (pollIncoming arrived frames).1 with
        | .ready (some (.data bytes)) => [meter.add bytes.length]
        | _ => []) := by
  rcases pollIncoming_cases arrived frames with same | ⟨rfl, same⟩ | ⟨frame, rest, rfl, same⟩
  · rw [same]
    constructor <;> simp [ProxyBody.frames, meter?, counting, Poll.frame?, Poll.dataLength]
  · rw [same]
    constructor <;> simp [ProxyBody.frames, meter?, counting, Poll.frame?, Poll.dataLength]
  · rw [same]
    cases frame with
    | data bytes =>
        refine ⟨by simp [ProxyBody.frames, Poll.frame?], by simp, rfl, ?_, ?_, ?_, ?_⟩
        · intro counters field
          obtain ⟨own, response⟩ := meter
          cases response <;> cases field <;> by_cases same : own = counters <;>
            simp [meter?, Meter.add, Meter.field, Effect.amount, Update.amount, same,
              Poll.dataLength, Poll.frame?, Frame.dataLength]
        · intro counters effect member
          rw [List.mem_singleton.mp member]
          cases response : meter.response <;> simp [Meter.add, Effect.flow, Update.flow, response]
        · rfl
        · simp [counting]
    | _ => constructor <;> simp [ProxyBody.frames, meter?, counting, Poll.frame?, Poll.dataLength,
        Frame.dataLength]

theorem streamed_full (data : Option Bytes) :
    Streamed (κ := κ) (δ := δ) (.full data) [.ready ((data.filter (· ≠ [])).map .data)]
      (.full none) [] := by
  constructor <;> simp [ProxyBody.frames, meter?, counting, Poll.frame?]
  cases data.filter (· ≠ []) <;> rfl

theorem streamed_poll (body : ProxyBody κ δ) (arrived : Bool) :
    Streamed body [(body.pollFrame arrived).1] (body.pollFrame arrived).2.1
      (body.pollFrame arrived).2.2 := by
  induction body with
  | incoming frames => exact streamed_incoming arrived frames
  | metered frames meter => exact streamed_metered arrived frames meter
  | full data => exact streamed_full data
  | empty => constructor <;> simp [pollFrame, ProxyBody.frames, meter?, counting, Poll.frame?]
  | counted inner bytes onDone ih =>
      refine ⟨ih.frames, ih.ended, ih.meter, ih.amount, ih.flow, ih.completions, ?_⟩
      have rest := ih.counting
      cases onDone <;> simp_all [pollFrame, counting]

theorem streamed_polls (body : ProxyBody κ δ) (arrivals : List Bool) :
    Streamed body (body.polls arrivals).1 (body.polls arrivals).2.1 (body.polls arrivals).2.2 := by
  induction arrivals generalizing body with
  | nil => exact .nil body
  | cons arrived arrivals ih => exact (body.streamed_poll arrived).append (ih _)

/-! ## Drops -/

omit [DecidableEq κ] in
/-- A body that is dropped makes every call it owes, with its count. -/
theorem completions_drop (body : ProxyBody κ δ) :
    body.drop.filterMap Effect.completion? = body.counting := by
  induction body with
  | counted inner bytes onDone ih =>
      cases onDone <;> simp [drop, counting, ih, Effect.completion?]
  | metered frames meter =>
      cases response : meter.response <;>
        simp [drop, Meter.drop, counting, response, Effect.completion?]
  | _ => rfl

/-- A response that is dropped is no longer active. -/
theorem flow_drop (body : ProxyBody κ δ) (counters : κ) :
    (body.drop.map (Effect.flow counters)).sum =
      if body.meter?.any (fun meter => meter.response ∧ meter.counters = counters) then -1
      else 0 := by
  induction body with
  | counted inner bytes onDone ih =>
      cases onDone <;> simpa [drop, meter?, Effect.flow] using ih
  | metered frames meter =>
      obtain ⟨own, response⟩ := meter
      cases response <;> by_cases same : own = counters <;>
        simp [drop, Meter.drop, meter?, Effect.flow, Update.flow, same]
  | _ => simp [drop, meter?]

theorem amount_drop (body : ProxyBody κ δ) (counters : κ) (field : Field) :
    (body.drop.map (Effect.amount counters field)).sum = 0 := by
  induction body with
  | counted inner bytes onDone ih => cases onDone <;> simpa [drop, Effect.amount] using ih
  | metered frames meter =>
      cases response : meter.response <;> cases field <;>
        simp [drop, Meter.drop, Effect.amount, Update.amount, response]
  | _ => rfl

/-- Through any polls and the drop after them, however a body is wrapped: its frames come
out in order, none lost or repeated, and all of them once it ends; their data is added once
to the counter of its meter, and to no other; and every call that is owed is made once, by
the drop, with the length of all data. -/
theorem polls_then_drop (body : ProxyBody κ δ) (arrivals : List Bool) :
    let (polls, rest, effects) := body.polls arrivals
    polls.filterMap Poll.frame? ++ rest.frames = body.frames ∧
      (.ready none ∈ polls → polls.filterMap Poll.frame? = body.frames) ∧
      (∀ counters field, ((effects ++ rest.drop).map (Effect.amount counters field)).sum =
        if body.meter?.any (fun meter => meter.counters = counters ∧ meter.field = field) then
          (polls.map Poll.dataLength).sum
        else 0) ∧
      (∀ counters, ((effects ++ rest.drop).map (Effect.flow counters)).sum =
        if body.meter?.any (fun meter => meter.response ∧ meter.counters = counters) then -1
        else 0) ∧
      effects.filterMap Effect.completion? = [] ∧
      rest.drop.filterMap Effect.completion? =
        body.counting.map fun call => (call.1, call.2 + (polls.map Poll.dataLength).sum) := by
  have streamed := body.streamed_polls arrivals
  refine ⟨streamed.frames, ?_, ?_, ?_, streamed.completions, ?_⟩
  · intro ended
    have all := streamed.frames
    rwa [streamed.ended ended, List.append_nil] at all
  · intro counters field
    rw [List.map_append, List.sum_append, streamed.amount, amount_drop, Nat.add_zero]
  · intro counters
    have none : (body.polls arrivals).2.2.map (Effect.flow counters) =
        (body.polls arrivals).2.2.map fun _ => 0 :=
      List.map_congr_left (streamed.flow counters)
    rw [List.map_append, List.sum_append, none, flow_drop, streamed.meter]
    simp
  · rw [completions_drop, streamed.counting]

/-! ## Hints -/

omit [DecidableEq κ] in
theorem sum_dataLength (polls : List Poll) :
    (polls.map Poll.dataLength).sum =
      ((polls.filterMap Poll.frame?).map Frame.dataLength).sum := by
  induction polls with
  | nil => rfl
  | cons poll polls ih =>
      rw [List.map_cons, List.sum_cons, ih, Poll.dataLength]
      cases found : poll.frame? <;> simp [found]

omit [DecidableEq κ] in
theorem sum_frames_full (data : Option Bytes) :
    (((ProxyBody.full data : ProxyBody κ δ).frames).map Frame.dataLength).sum =
      (data.map List.length).getD 0 := by
  rcases data with _ | _ | ⟨byte, bytes⟩ <;> rfl

section Documented

variable {hints : Hints} (documented : hints.Documented)

include documented

omit [DecidableEq κ] in
theorem frames_of_isEndStream (body : ProxyBody κ δ) (ended : body.isEndStream hints = true) :
    body.frames = [] := by
  induction body with
  | incoming frames => exact documented.ended frames ended
  | metered frames meter => exact documented.ended frames ended
  | full data =>
      cases data with
      | none => rfl
      | some data => simp_all [isEndStream, ProxyBody.frames]
  | empty => rfl
  | counted inner bytes onDone ih => exact ih ended

omit [DecidableEq κ] in
theorem le_upper (body : ProxyBody κ δ) {bound : Nat}
    (upper : (body.sizeHint hints).upper = some bound) :
    (body.frames.map Frame.dataLength).sum ≤ bound := by
  induction body with
  | incoming frames => exact documented.upper frames bound upper
  | metered frames meter => exact documented.upper frames bound upper
  | full data =>
      obtain rfl := Option.some.inj upper
      exact (sum_frames_full data).le
  | empty => simp [ProxyBody.frames]
  | counted inner bytes onDone ih => exact ih upper

omit [DecidableEq κ] in
theorem lower_le (body : ProxyBody κ δ) (whole : ∀ message, .error message ∉ body.frames) :
    (body.sizeHint hints).lower ≤ (body.frames.map Frame.dataLength).sum := by
  induction body with
  | incoming frames => exact documented.lower frames whole
  | metered frames meter => exact documented.lower frames whole
  | full data => exact (sum_frames_full data).ge
  | empty => simp [sizeHint, SizeHint.withExact]
  | counted inner bytes onDone ih => exact ih whole

/-- A body that says it has ended yields nothing more, no polls yield more data than its
upper bound, and those that reach its end yield at least its lower bound, unless reading
fails. -/
theorem polls_within_hints (body : ProxyBody κ δ) (arrivals : List Bool) :
    let polls := (body.polls arrivals).1
    (body.isEndStream hints = true → ∀ poll ∈ polls, poll.frame? = none) ∧
      (∀ bound, (body.sizeHint hints).upper = some bound →
        (polls.map Poll.dataLength).sum ≤ bound) ∧
      (.ready none ∈ polls → (∀ message, .error message ∉ body.frames) →
        (body.sizeHint hints).lower ≤ (polls.map Poll.dataLength).sum) := by
  have streamed := body.streamed_polls arrivals
  refine ⟨?_, ?_, ?_⟩
  · intro ended
    have all := streamed.frames
    rw [frames_of_isEndStream documented body ended, List.append_eq_nil_iff,
      List.filterMap_eq_nil_iff] at all
    exact all.1
  · intro bound upper
    have bounded := le_upper documented body upper
    rw [← streamed.frames, List.map_append, List.sum_append, ← sum_dataLength] at bounded
    exact (Nat.le_add_right _ _).trans bounded
  · intro ended whole
    have bounded := lower_le documented body whole
    rwa [← streamed.frames, streamed.ended ended, List.append_nil, ← sum_dataLength] at bounded

end Documented

/-- Hints that always know the length. -/
def exactHints : Hints where
  isEndStream := List.isEmpty
  sizeHint frames := .withExact (frames.map Frame.dataLength).sum

theorem exactHints_documented : exactHints.Documented where
  ended _ ended := List.isEmpty_iff.mp ended
  upper _ _ upper := (Option.some.inj upper).le
  lower _ _ := le_rfl

theorem polls_within_hints_download :
    let body : ProxyBody Nat Str :=
      .count (.metered [.data [1, 2], .trailers, .data [3]] ⟨0, true⟩) "download".toList
    let polls := (body.polls [true, false, true, true, true]).1
    (polls.map Poll.dataLength).sum ≤ 3 ∧ 3 ≤ (polls.map Poll.dataLength).sum :=
  have bounds := polls_within_hints exactHints_documented
    (.count (.metered [.data [1, 2], .trailers, .data [3]] ⟨0, true⟩) "download".toList :
      ProxyBody Nat Str) [true, false, true, true, true]
  ⟨bounds.2.1 3 rfl, bounds.2.2 (by decide) (by simp [count, ProxyBody.frames])⟩

end ProxyBody

end Proxemby
