import Proxemby.Lib.Machine
import Proxemby.Lib.Utf8
import Proxemby.Logging.Unforgeable

/-!
# The log of a process

All clones of a logger share one sink behind a lock.  A call of `log` makes its line first; it
then takes the lock, writes the line with as many calls of the operating system as that takes,
and ignores a failure.
-/

namespace Proxemby.Logging

open Text Rfc8259

/-- A call of `log`, with the attributes of the logger it is called on. -/
structure LogCall where
  loggerAttrs : Attrs
  now : Int
  level : Level
  msg : Str
  attrs : Attrs

def LogCall.logger (call : LogCall) (config : Config) : Logger := ⟨config, call.loggerAttrs⟩

/-- What the call writes, if its level is enabled. -/
def LogCall.record (call : LogCall) (config : Config) : Option Str :=
  (call.logger config).log call.now call.level call.msg call.attrs

/-- What the writer has taken, and what is left of the record whose call holds the lock. -/
structure Sink where
  out : Bytes
  holder : Option Bytes

/-- What one write to the operating system comes to. -/
inductive Wrote where
  | some (n : Nat)
  | interrupted
  | failed

inductive SinkInput where
  | log (call : LogCall)
  | write (wrote : Wrote)

namespace Sink

def empty : Sink := ⟨[], none⟩

/-- One step of a thread.  A call that gets the lock is put out. -/
def step (config : Config) (sink : Sink) : SinkInput → Sink × List LogCall
  | .log call =>
      match call.record config, sink.holder with
      | none, _ => (sink, [])
      -- The thread waits for the lock.
      | some _, some _ => (sink, [])
      | some record, none => ({ sink with holder := some (Utf8.encode record) }, [call])
  | .write wrote =>
      match sink.holder with
      | none => (sink, [])
      | some left =>
          match wrote with
          | .interrupted => (sink, [])
          | .failed | .some 0 => ({ sink with holder := none }, [])
          | .some (n + 1) =>
              let rest := left.drop (n + 1)
              ({ out := sink.out ++ left.take (n + 1)
                 holder := if rest = [] then none else some rest }, [])

def machine (config : Config) : Machine Sink SinkInput LogCall where
  step := step config

/-- What will have been written once the call in progress is over. -/
def whole (sink : Sink) : Bytes := sink.out ++ sink.holder.getD []

/-- A write that does not fail. -/
def Works : SinkInput → Prop
  | .write .failed | .write (.some 0) => False
  | _ => True

/-- What a call adds to the log. -/
def append (config : Config) (bytes : Bytes) (call : LogCall) : Bytes :=
  bytes ++ Utf8.encode ((call.record config).getD [])

theorem whole_next (config : Config) (sink : Sink) {input : SinkInput} (works : Works input) :
    ((machine config).next sink input).whole =
      ((machine config).outputs sink input).foldl (append config) sink.whole := by
  cases input with
  | log call =>
      cases record : call.record config with
      | none => simp [Machine.next, Machine.outputs, machine, step, record]
      | some line =>
          cases held : sink.holder with
          | some left => simp [Machine.next, Machine.outputs, machine, step, record, held]
          | none =>
              simp [Machine.next, Machine.outputs, machine, step, record, held, whole, append]
  | write wrote =>
      cases held : sink.holder with
      | none => simp [Machine.next, Machine.outputs, machine, step, held]
      | some left =>
          match wrote with
          | .interrupted => simp [Machine.next, Machine.outputs, machine, step, held]
          | .failed | .some 0 => exact works.elim
          | .some (n + 1) =>
              have halves : left.take (n + 1) ++ left.drop (n + 1) = left :=
                List.take_append_drop _ _
              simp only [Machine.next, Machine.outputs, machine, step, held, whole,
                List.foldl_nil, Option.getD_some]
              split
              · next done =>
                  rw [done, List.append_nil] at halves
                  rw [halves, Option.getD_none, List.append_nil]
              · rw [Option.getD_some, List.append_assoc, halves]

theorem outputs_write (config : Config) (sink : Sink) (wrote : Wrote) :
    (machine config).outputs sink (.write wrote) = [] := by
  simp only [Machine.outputs, machine, step]
  split
  · rfl
  · split <;> rfl

/-- Calls that get the lock have been made, and have something to write. -/
theorem exists_record (config : Config) {sink : Sink} {inputs : List SinkInput} {call : LogCall}
    (got : call ∈ (machine config).trace sink inputs) :
    .log call ∈ inputs ∧ ∃ record, call.record config = some record := by
  induction inputs generalizing sink with
  | nil => cases got
  | cons input inputs ih =>
      rw [Machine.trace, List.mem_append] at got
      rcases got with here | later
      · cases input with
        | log other =>
            cases record : other.record config with
            | none => simp [Machine.outputs, machine, step, record] at here
            | some line =>
                cases held : sink.holder with
                | some left => simp [Machine.outputs, machine, step, record, held] at here
                | none =>
                    simp only [Machine.outputs, machine, step, record, held,
                      List.mem_singleton] at here
                    subst here
                    exact ⟨List.mem_cons_self, line, record⟩
        | write wrote =>
            rw [outputs_write] at here
            cases here
      · obtain ⟨made, record⟩ := ih later
        exact ⟨List.mem_cons_of_mem _ made, record⟩

theorem foldl_append (config : Config) (bytes : Bytes) (calls : List LogCall) :
    calls.foldl (append config) bytes =
      bytes ++ Utf8.encode (calls.flatMap fun call => (call.record config).getD []) := by
  induction calls generalizing bytes with
  | nil => simp
  | cons call calls ih =>
      rw [List.foldl_cons, ih, append, List.flatMap_cons, Utf8.encode_append, List.append_assoc]

end Sink

/-- What is read in a line is what the call has been given: the fields of a text record, or the
members of a JSON object. -/
def LogCall.Tells (call : LogCall) (config : Config) (line : Str) : Prop :=
  let logger := call.logger config
  let time := logger.timeOf call.now
  match config.format with
  | .text => readRecord line = (logger.fields call.level call.msg call.attrs time).map some
  | .json => IsJson line (.object (logger.members call.level call.msg call.attrs time))

theorem bare_timeOf (logger : Logger) (now : Int) :
    ∀ text ∈ logger.timeOf now, ∀ c ∈ text, isBareChar c = true := by
  intro text member
  rw [Logger.timeOf] at member
  split at member
  · obtain rfl := Option.some.inj member
    exact bare_formatTime now
  · cases member

/-- A record is a line. -/
theorem LogCall.exists_line {call : LogCall} {config : Config} {record : Str}
    (written : call.record config = some record) :
    ∃ line, record = line ++ ['\n'] ∧ '\n' ∉ line ∧ call.Tells config line := by
  have feed : ¬0x20 ≤ '\n'.toNat := by decide
  rw [LogCall.record, Logger.log] at written
  split at written
  · cases written
  · obtain rfl := Option.some.inj written
    cases format : config.format with
    | text =>
        obtain ⟨first, fields, line, are⟩ := (call.logger config).textLine_fields call.level
          call.msg call.attrs (bare_timeOf (call.logger config) call.now)
        refine ⟨joinFields first fields, ?_, fun member => feed (visible_join are _ member), ?_⟩
        · rw [← line, LogCall.logger, format]
          rfl
        · rw [Tells, format]
          exact readRecord_join are
    | json =>
        obtain ⟨first, texts, line, are⟩ := (call.logger config).jsonLine_members call.level
          call.msg call.attrs ((call.logger config).timeOf call.now)
        obtain ⟨⟨pieces, members, text⟩, visible⟩ := members_join are
        have whole : ∀ c ∈ '{' :: (first ++ texts.flatMap (',' :: ·)) ++ ['}'], 0x20 ≤ c.toNat :=
          List.forall_mem_append.mpr ⟨List.forall_mem_cons.mpr ⟨by decide, visible⟩, by decide⟩
        refine ⟨_, ?_, fun member => feed (whole _ member), ?_⟩
        · rw [← line, LogCall.logger, format]
          rfl
        · rw [Tells, format]
          refine ⟨_, ⟨[], _, [], by simp [IsWs], .object members, by simp [IsWs], rfl⟩, ?_⟩
          simp [text]

/-- A call whose level is enabled writes a line. -/
theorem LogCall.exists_line_of_enabled {call : LogCall} {config : Config}
    (enabled : config.level.rank ≤ call.level.rank) :
    ∃ line, call.record config = some (line ++ ['\n']) ∧ '\n' ∉ line ∧
      call.Tells config line := by
  have goes : (call.logger config).enabled call.level = true := decide_eq_true enabled
  obtain ⟨record, written⟩ : ∃ record, call.record config = some record := by
    rw [LogCall.record, Logger.log, goes]
    exact ⟨_, rfl⟩
  obtain ⟨line, rfl, fresh, tells⟩ := exists_line written
  exact ⟨line, written, fresh, tells⟩

/-- The records of some calls are lines, in their order. -/
theorem exists_lines {config : Config} {calls : List LogCall}
    (written : ∀ call ∈ calls, ∃ record, call.record config = some record) :
    ∃ lines, calls.flatMap (fun call => (call.record config).getD []) = terminated '\n' lines ∧
      (∀ line ∈ lines, '\n' ∉ line) ∧ List.Forall₂ (fun call => call.Tells config) calls lines := by
  induction calls with
  | nil => exact ⟨[], rfl, by simp, .nil⟩
  | cons call calls ih =>
      obtain ⟨⟨record, here⟩, later⟩ := List.forall_mem_cons.mp written
      obtain ⟨lines, text, fresh, tells⟩ := ih later
      obtain ⟨line, rfl, noFeed, tellsHere⟩ := LogCall.exists_line here
      refine ⟨line :: lines, ?_, List.forall_mem_cons.mpr ⟨noFeed, fresh⟩, .cons tellsHere tells⟩
      rw [List.flatMap_cons, here, text]
      rfl

/-- The log of any run whose writes do not fail can be read.  Whatever threads log at a time,
and however the writes are cut, it is one line for each enabled call that gets the lock, in
this order, which says what the call has been given and nothing else; only the last line may
not be there in full yet. -/
theorem log_readable (config : Config) (inputs : List SinkInput)
    (works : ∀ input ∈ inputs, Sink.Works input) :
    let sink := (Sink.machine config).run .empty inputs
    let calls := (Sink.machine config).trace .empty inputs
    (∀ call ∈ calls, .log call ∈ inputs) ∧
      ∃ lines, List.Forall₂ (fun call => call.Tells config) calls lines ∧
        sink.whole = Utf8.encode (terminated '\n' lines) ∧
        (sink.holder = none →
          (Utf8.decode sink.out).bind (terminatedParts '\n') = some lines) := by
  intro sink calls
  have replayed : sink.whole = calls.foldl (Sink.append config) [] :=
    (Sink.machine config).run_replayed (Sink.append config) (fun sink bytes => sink.whole = bytes)
      (fun sink bytes input works same => by rw [Sink.whole_next config sink works, same]) rfl
      (by rintro before input after rfl; exact works input (by simp))
  obtain ⟨lines, text, fresh, tells⟩ := exists_lines fun call got =>
    (@Sink.exists_record config .empty inputs call got).2
  rw [Sink.foldl_append, text, List.nil_append] at replayed
  refine ⟨fun call got => (Sink.exists_record config got).1, lines, tells, replayed, fun free => ?_⟩
  rw [Sink.whole, free, Option.getD_none, List.append_nil] at replayed
  rw [replayed, Utf8.decode_encode, Option.bind_some, terminatedParts_terminated fresh]

/-- Two threads log at a time, and a write is cut in the middle of a record. -/
theorem log_readable_two :
    let config : Config := { level := .info, format := .text, time := false }
    let login : LogCall :=
      ⟨[], 0, .info, "login".toList, [(agentKey, .str "x\nlevel=ERROR".toList)]⟩
    let hidden : LogCall := ⟨[], 0, .debug, "request".toList, []⟩
    let stop : LogCall := ⟨[], 0, .error, "stop".toList, []⟩
    let inputs : List SinkInput := [.log login, .log stop, .write (.some 7), .write .interrupted,
      .log hidden, .write (.some 99), .log stop, .write (.some 99)]
    let sink := (Sink.machine config).run .empty inputs
    ∃ line line', login.Tells config line ∧ stop.Tells config line' ∧
      (Utf8.decode sink.out).bind (terminatedParts '\n') = some [line, line'] := by
  intro config login hidden stop inputs sink
  have works : ∀ input ∈ inputs, Sink.Works input := by
    simp [inputs, Sink.Works]
  obtain ⟨-, lines, tells, -, read⟩ := log_readable config inputs works
  have calls : (Sink.machine config).trace .empty inputs = [login, stop] := rfl
  rw [calls] at tells
  cases tells with
  | cons first others =>
      cases others with
      | cons second none =>
          cases none
          exact ⟨_, _, first, second, read rfl⟩

end Proxemby.Logging
