import Mathlib.Algebra.Group.Prod
import Mathlib.Algebra.Order.Group.Multiset
import Proxemby.Server.Reference
import Proxemby.Server.Traffic
import Proxemby.Stats.Agreement
import Proxemby.Stats.CatchUp
import Proxemby.Stats.Streams

/-!
# The books of a running proxy

What the counters, the number of active streams and the log come to over a whole run,
whatever threads do between two updates of another.
-/

namespace Proxemby.Traffic

open Stats (Shared)

variable {routes : List Str} (setup : Setup routes)

/-! ## Traffic -/

/-- What is in a counter, or has yet to be added to it. -/
def counted (pair : Pair routes) (field : Field) (running : Running routes) : Nat :=
  running.shared.current pair field + Agenda.total (Effect.amount pair field) running.todo

/-- The traffic of a step. -/
def traffic (pair : Pair routes) (field : Field) (noted : Noted routes) (input : Input) : Nat :=
  ((setup.event noted input).map (Event.traffic pair field)).getD 0

/-- A counter grows by what a thread adds to it in a step. -/
theorem current_next (running : Running routes) (input : Input) (pair : Pair routes)
    (field : Field) :
    (setup.machine.next running input).shared.current pair field =
      running.shared.current pair field +
        ((Setup.action? running input).map (Shared.added pair field running.shared)).getD 0 := by
  rw [setup.shared_next]
  cases Setup.action? running input with
  | none => rw [Option.toList_none, Machine.run_nil, Option.map_none, Option.getD_none, add_zero]
  | some action => exact Shared.current_next setup.statsCrates running.shared action pair field

/-- The traffic of a step goes to the counters, at once or by what a thread has left to do. -/
theorem counted_next (documented : setup.hints.Documented) {noted : Noted routes}
    (sound : noted.Sound setup) (input : Input) (pair : Pair routes) (field : Field) :
    counted pair field (setup.noted.next noted input).running =
      counted pair field noted.running + traffic setup pair field noted input := by
  have current := current_next setup noted.running input pair field
  rw [← setup.running_next] at current
  have silently (silent : Setup.action? noted.running input = none) :
      (setup.noted.next noted input).running.shared.current pair field =
        noted.running.shared.current pair field := by
    rw [silent, Option.map_none, Option.getD_none, Nat.add_zero] at current
    exact current
  cases setup.steps sound input with
  | still event silent bodies notes todo =>
      simp only [counted, traffic, event, silently silent, todo, Option.map_none, Option.getD_none,
        Nat.add_zero]
  | made thread asked answer front event silent bodies notes todo =>
      rcases event with ⟨rfl, event⟩ | ⟨rfl, event⟩
      · simp only [counted, traffic, event, silently silent, todo, Agenda.total_append,
          Agenda.total_assign, List.map_append, Served.amount_arrive, Served.amount_respond,
          Option.map_some, Option.getD_some, Event.traffic, answerTraffic, Nat.add_assoc]
      · simp only [counted, traffic, event, silently silent, todo, Agenda.total_append,
          Agenda.total_assign, List.nil_append, Served.amount_respond, Option.map_some,
          Option.getD_some, Event.traffic, answerTraffic, Nat.add_assoc]
  | forwarded thread asked upload event silent bodies notes todo =>
      simp only [counted, traffic, event, silently silent, todo, Agenda.total_append,
        Agenda.total_assign, Served.amount_arrive, Option.map_some, Option.map_none,
        Option.getD_some, Option.getD_none, Event.traffic, Nat.add_zero, Nat.add_assoc]
  | read thread id body note arrived event silent there known bodies notes todo =>
      obtain ⟨note', known', fits⟩ := sound.bodies.other_of_get there
      obtain rfl := Option.some.inj (known.symm.trans known')
      simp only [counted, traffic, event, silently silent, todo, Agenda.total_append,
        Agenda.total_assign, fits.amount_poll documented, Option.map_some, Option.getD_some,
        Nat.add_assoc]
  | dropped thread id body note event silent there known bodies notes todo =>
      simp only [counted, traffic, event, silently silent, todo, Agenda.total_append,
        Agenda.total_assign, ProxyBody.amount_drop, Option.map_some, Option.getD_some,
        Event.traffic, Nat.add_zero]
  | tunnelled thread counters sent received event silent bodies notes todo =>
      simp only [counted, traffic, event, silently silent, todo, Agenda.total_append,
        Option.map_some, Option.getD_some, Event.traffic]
      cases field <;> by_cases same : counters = pair <;>
        simp [Agenda.total, Effect.amount, Update.amount, same] <;> omega
  | performed thread counters update event acts bodies notes todo =>
      have taken := Agenda.total_take (Effect.amount pair field) todo
      rw [acts, Option.map_some, Option.getD_some] at current
      simp only [counted, traffic, event, current, Option.map_none, Option.getD_none, ← taken,
        Effect.amount, Shared.added, Prod.mk.eta]
      omega
  | logged thread log bytes event silent bodies notes todo =>
      have taken := Agenda.total_take (Effect.amount pair field) todo
      simp only [counted, traffic, event, silently silent, Option.map_none, Option.getD_none,
        ← taken, Effect.amount]
      omega
  | called action calm event acts bodies notes todo =>
      have nothing : Shared.added pair field noted.running.shared action = 0 := by
        cases action with
        | add thread route kind update => exact calm.elim
        | call call => rfl
        | go env => rfl
      rw [acts, Option.map_some, Option.getD_some, nothing, Nat.add_zero] at current
      simp only [counted, traffic, event, current, todo, Option.map_none, Option.getD_none,
        Nat.add_zero]

/-- All traffic of a run is in the counters, or has yet to be added to them. -/
theorem counted_run (documented : setup.hints.Documented) {noted : Noted routes}
    (sound : noted.Sound setup) (inputs : List Input) (pair : Pair routes) (field : Field) :
    counted pair field (setup.machine.run noted.running inputs) =
      counted pair field noted.running +
        setup.noted.total (traffic setup pair field) noted inputs := by
  rw [← setup.running_run]
  induction inputs generalizing noted with
  | nil => exact (Nat.add_zero _).symm
  | cons input inputs ih =>
      rw [Machine.run_cons, ih (sound.next input), counted_next setup documented sound,
        Machine.total, Nat.add_assoc]

/-- What threads have added to a counter that was zero, and have yet to add, is the traffic. -/
theorem added_run (documented : setup.hints.Documented) (state : State) {shared : Shared routes}
    {pair : Pair routes} {field : Field} (empty : shared.current pair field = 0)
    (inputs : List Input) :
    let start := Running.start state shared
    (Shared.machine setup.statsCrates).total (Shared.added pair field) shared
        (setup.actions start inputs) +
      Agenda.total (Effect.amount pair field) (setup.machine.run start inputs).todo =
        setup.noted.total (traffic setup pair field) start.noted inputs := by
  intro start
  have all := counted_run setup documented (.start setup state shared) inputs pair field
  have none : counted pair field start = 0 := by
    rw [counted]
    exact (Nat.add_zero _).trans empty
  rw [counted, setup.shared_run, Shared.current_run] at all
  change shared.current pair field + _ + _ = counted pair field start + _ at all
  rwa [none, empty, Nat.zero_add, Nat.zero_add] at all

/-- While the stored and the new traffic is below `2 ^ 64`, the counters of a process that has
just started never overflow. -/
theorem agrees_run (distinct : routes.Nodup) (documented : setup.hints.Documented)
    (state : State) {shared : Shared routes} (sound : shared.Sound)
    (empty : ∀ pair field, shared.current pair field = 0) (inputs : List Input)
    (small : ∀ pair field, shared.stored pair field +
      setup.noted.total (traffic setup pair field) (Running.start state shared).noted inputs <
        2 ^ 64) :
    (Shared.machineU64 setup.statsCrates).run shared
        (setup.actions (.start state shared) inputs) =
      (setup.machine.run (.start state shared) inputs).shared := by
  rw [setup.shared_run]
  refine (Shared.runU64_of_lt setup.statsCrates distinct sound ?_ ?_).1
  · intro pair field
    have added := added_run setup documented state (empty pair field) inputs
    have sum := small pair field
    rw [Shared.stock, empty, Nat.zero_sub, Nat.add_zero]
    omega
  · intro pair field
    have added := added_run setup documented state (empty pair field) inputs
    have sum := small pair field
    rw [empty, Nat.zero_add]
    omega

/-- The proxy of the examples, with statistics and at the debug level. -/
def exampleSetup : Setup ["proxemby".toList] where
  crates := Reference.crates
  statsCrates := Reference.statsCrates
  hints := ProxyBody.exactHints
  server := Server.withStats Reference.crates (Reference.config [] []) none
  debug := true
  statsEnable := true

/-- A video is streamed until its client goes away; the response starts on one thread and
ends on another. -/
def exampleStream : List Input :=
  [.request 0 (Reference.request .get "/emby/Videos/1/stream.mkv" none []) Reference.conn
      Reference.env [],
    .work 0,
    .reply 0 0 (.reply ⟨200, .empty, [.data [1, 2], .data [3], .data [4]]⟩) Reference.env,
    .work 0, .poll 0 1 true, .poll 1 1 true, .work 0, .work 1, .drop 1 1, .work 1]

variable {setup}

/-- The sum of the shards, with the starts and ends that threads have yet to perform, is the
number of answers that are being streamed. -/
def Balanced (pair : Pair routes) (noted : Noted routes) : Prop :=
  noted.running.shared.streams pair + Agenda.total (Effect.flow pair) noted.running.todo =
    noted.notes.bodies.total (Note.alive pair)

/-- Only a thread that performs an update changes the number of active streams. -/
theorem streams_next (running : Running routes) (input : Input) (pair : Pair routes)
    (calm : ∀ action, Setup.action? running input = some action → Shared.Quiet action) :
    (setup.machine.next running input).shared.streams pair = running.shared.streams pair := by
  rw [setup.shared_next]
  cases acts : Setup.action? running input with
  | none => rfl
  | some action =>
      change ((Shared.machine setup.statsCrates).next running.shared action).streams pair = _
      rw [Shared.streams, Shared.counters_next setup.statsCrates (calm action acts)]
      rfl

theorem balanced_next {pair : Pair routes} {noted : Noted routes} (sound : noted.Sound setup)
    (balanced : Balanced pair noted) (input : Input) :
    Balanced pair (setup.noted.next noted input) := by
  have silently (silent : Setup.action? noted.running input = none) :
      (setup.noted.next noted input).running.shared.streams pair =
        noted.running.shared.streams pair :=
    streams_next noted.running input pair fun action acts => by
      rw [silent] at acts
      cases acts
  rw [Balanced] at balanced ⊢
  cases setup.steps sound input with
  | still event silent bodies notes todo => rw [silently silent, notes, todo, balanced]
  | made thread asked answer front event silent bodies notes todo =>
      have front : (front.map (Effect.flow pair)).sum = 0 := by
        rcases event with ⟨rfl, -⟩ | ⟨rfl, -⟩
        · exact asked.flow_arrive pair
        · rfl
      rw [silently silent, notes, todo, Agenda.total_append, Agenda.total_assign, List.map_append,
        List.sum_append, front, zero_add, asked.flow_respond, Slots.total_push, ← add_assoc,
        balanced]
      rfl
  | forwarded thread asked upload event silent bodies notes todo =>
      rw [silently silent, notes, todo, Agenda.total_append, Agenda.total_assign,
        asked.flow_arrive, add_zero, Slots.total_push, balanced]
      simp [Note.upload, Note.alive]
  | read thread id body note arrived event silent there known bodies notes todo =>
      have none : (body.pollFrame arrived).2.2.map (Effect.flow pair) =
          (body.pollFrame arrived).2.2.map fun _ => 0 :=
        List.map_congr_left ((body.streamed_poll arrived).flow pair)
      have change := noted.notes.bodies.total_modify (Note.alive pair) id
        fun note => some (note.poll (body.pollFrame arrived).1)
      rw [known, Option.bind_some, Slots.weigh_some, Slots.weigh_some] at change
      rw [silently silent, notes, todo, Agenda.total_append, Agenda.total_assign, none,
        add_right_cancel change]
      simpa using balanced
  | dropped thread id body note event silent there known bodies notes todo =>
      obtain ⟨note', known', fits⟩ := sound.bodies.other_of_get there
      obtain rfl := Option.some.inj (known.symm.trans known')
      have change := noted.notes.bodies.total_remove (Note.alive pair) id
      rw [known, Slots.weigh_some] at change
      rw [silently silent, notes, todo, Agenda.total_append, Agenda.total_assign, fits.flow_drop,
        ← add_assoc, balanced, ← change, add_neg_cancel_right]
  | tunnelled thread counters sent received event silent bodies notes todo =>
      rw [silently silent, notes, todo, Agenda.total_append, ← add_assoc, balanced]
      simp [Agenda.total, Effect.flow, Update.flow]
  | performed thread counters update event acts bodies notes todo =>
      have shared : (setup.noted.next noted input).running.shared =
          noted.running.shared.add thread counters.1 counters.2 update := by
        rw [setup.running_next, setup.shared_next, acts]
        rfl
      rw [shared, notes, Shared.streams_add, ← balanced,
        ← Agenda.total_take (Effect.flow pair) todo, add_assoc]
      rfl
  | logged thread log bytes event silent bodies notes todo =>
      rw [silently silent, notes, ← balanced, ← Agenda.total_take (Effect.flow pair) todo]
      simp [Effect.flow]
  | called action calm event acts bodies notes todo =>
      have same : (setup.noted.next noted input).running.shared.streams pair =
          noted.running.shared.streams pair :=
        streams_next noted.running input pair fun other acts' => by
          obtain rfl := Option.some.inj (acts.symm.trans acts')
          exact calm
      rw [same, notes, todo, balanced]

/-- The number of active streams is right whenever no thread is in the middle of its updates,
whichever threads the streams have started and ended on: `Counters::active` finds as many as
answers of counted requests are being streamed, and none once all of them are dropped. -/
theorem active_streams (setup : Setup routes) (state : State) (path : Option Str)
    (startedAt : Str) (days : Days) (threads : Stats.Threads) (disk : Disk)
    (inputs : List Input) (pair : Pair routes) :
    let start := Running.start state (Shared.start (.fresh routes path startedAt days) threads disk)
    let running := setup.machine.run start inputs
    let notes := (setup.noted.run start.noted inputs).notes
    running.shared.streams pair + Agenda.total (Effect.flow pair) running.todo =
        notes.bodies.total (Note.alive pair) ∧
      (running.todo = [] →
        (running.shared.stats.counters pair.1 pair.2).read.active =
          notes.bodies.total (Note.alive pair)) := by
  intro start running notes
  have first : Balanced pair start.noted := by
    simp [Balanced, start, Running.noted, Running.start, Notes.empty, Shared.streams,
      Shared.start, Stats.fresh, Counters.streams, Counters.zero, Shard.zero]
  have both := setup.noted.run_invariant (fun noted => noted.Sound setup ∧ Balanced pair noted)
    (fun _ input both => ⟨both.1.next input, balanced_next both.1 both.2 input⟩)
    ⟨.start setup state _, first⟩ inputs
  have balanced : running.shared.streams pair + Agenda.total (Effect.flow pair) running.todo =
      notes.bodies.total (Note.alive pair) := by
    have balanced := both.2
    rwa [Balanced, setup.running_run] at balanced
  refine ⟨balanced, ?_⟩
  intro done
  rw [done, Agenda.total_nil, add_zero] at balanced
  rw [Counters.active_read]
  exact balanced

/-! ## Completion records -/

/-- A record of the log: what it says of a request, and the octets that it tells. -/
abbrev Records := Multiset (RequestLog × Nat)

/-- The record of a call at the end of a body. -/
def callRecords : Effect (Pair routes) RequestLog → Records
  | .update _ _ => 0
  | .done log bytes => {(log, bytes)}

/-- The record that is written with an output. -/
def Output.written : Output → Records
  | .logged log bytes => {(log, bytes)}
  | _ => 0

/-- The record of a body: it tells the length of what has been read. -/
def Note.record (note : Note routes) : Records :=
  match note.log with
  | some log => {(log, note.read)}
  | none => 0

/-- The records that are due with an event: an answer that is dropped has come to its end. -/
def Event.ended : Event routes → Records
  | .dropped note => note.record
  | _ => 0

/-- Records, and all octets that they tell. -/
abbrev Tally := Multiset RequestLog × Nat

def tally : Records →+ Tally where
  toFun records := (records.map Prod.fst, (records.map Prod.snd).sum)
  map_zero' := rfl
  map_add' records others := by simp

/-- What is to be told with an event: every answer to a request that is logged, with its
status, and the data that is read of it. -/
def Event.due : Event routes → Tally
  | .arrived asked (some answer) | .answered asked answer => tally (Note.answer asked answer).record
  | .read note poll => if note.log.isSome then (0, poll.dataLength) else 0
  | _ => 0

theorem tally_singleton (log : RequestLog) (bytes : Nat) : tally {(log, bytes)} = ({log}, bytes) :=
  rfl

theorem tally_poll (note : Note routes) (poll : Poll) :
    tally (note.poll poll).record =
      tally note.record + if note.log.isSome then (0, poll.dataLength) else 0 := by
  cases log : note.log <;> simp [Note.poll, Note.record, log, tally_singleton]

theorem sum_written {outputs : List Output}
    (quiet : ∀ log bytes, .logged log bytes ∉ outputs) :
    (outputs.map Output.written).sum = 0 := by
  refine List.sum_eq_zero fun record member => ?_
  obtain ⟨output, found, rfl⟩ := List.mem_map.mp member
  cases output with
  | logged log bytes => exact absurd found (quiet log bytes)
  | _ => rfl

theorem sum_records (effects : List (Effect (Pair routes) RequestLog)) :
    (effects.map callRecords).sum = (effects.filterMap Effect.completion? : Multiset _) := by
  induction effects with
  | nil => rfl
  | cons effect effects ih =>
      cases effect with
      | update counters update => exact (zero_add _).trans ih
      | done log bytes => exact congrArg ({(log, bytes)} + ·) ih

theorem records_respond (asked : Served (Pair routes)) (response : Response) :
    ((asked.respond response).2.map callRecords).sum = 0 := by
  rw [asked.effects_respond]
  cases asked.counters <;> cases response.body <;> rfl

theorem records_arrive (asked : Served (Pair routes)) :
    (asked.arrive.map callRecords).sum = 0 := by
  rw [Served.arrive]
  cases asked.counters <;> rfl

/-- A body that is dropped makes the call that its note asks for. -/
theorem Note.Fits.records_drop {hints : Hints} {note : Note routes}
    {body : ProxyBody (Pair routes) RequestLog} (fits : note.Fits hints body) :
    (body.drop.map callRecords).sum = note.record := by
  rw [sum_records, body.completions_drop, fits.counting, Note.record]
  cases note.log <;> rfl

/-- The records that threads have yet to write. -/
def pending (running : Running routes) : Records := Agenda.total callRecords running.todo

/-- A record is written once, by the thread that has dropped its body. -/
theorem pending_next {noted : Noted routes} (sound : noted.Sound setup) (input : Input) :
    pending (setup.noted.next noted input).running +
        ((setup.noted.outputs noted input).map Output.written).sum =
      pending noted.running + ((setup.event noted input).map Event.ended).getD 0 := by
  cases setup.steps sound input with
  | still event silent bodies notes todo quiet
  | called action calm event acts bodies notes todo quiet =>
      rw [pending, pending, todo, event, sum_written quiet]
      rfl
  | made thread asked answer front event silent bodies notes todo quiet =>
      have front : (front.map callRecords).sum = 0 := by
        rcases event with ⟨rfl, -⟩ | ⟨rfl, -⟩
        · exact records_arrive asked
        · rfl
      have ended : ((setup.event noted input).map Event.ended).getD 0 = 0 := by
        rcases event with ⟨-, event⟩ | ⟨-, event⟩ <;> rw [event] <;> rfl
      rw [pending, pending, todo, ended, sum_written quiet, Agenda.total_append,
        Agenda.total_assign, List.map_append, List.sum_append, front, records_respond, add_zero,
        add_zero]
  | forwarded thread asked upload event silent bodies notes todo quiet =>
      rw [pending, pending, todo, event, sum_written quiet, Agenda.total_append,
        Agenda.total_assign, records_arrive, add_zero]
      rfl
  | read thread id body note arrived event silent there known bodies notes todo quiet =>
      rw [pending, pending, todo, event, sum_written quiet, Agenda.total_append,
        Agenda.total_assign, sum_records, (body.streamed_poll arrived).completions,
        Multiset.coe_nil, add_zero]
      rfl
  | dropped thread id body note event silent there known bodies notes todo quiet =>
      obtain ⟨note', known', fits⟩ := sound.bodies.other_of_get there
      obtain rfl := Option.some.inj (known.symm.trans known')
      rw [pending, pending, todo, event, sum_written quiet, Agenda.total_append,
        Agenda.total_assign, fits.records_drop, add_zero]
      rfl
  | tunnelled thread counters sent received event silent bodies notes todo quiet =>
      rw [pending, pending, todo, event, sum_written quiet, Agenda.total_append]
      simp [Agenda.total, callRecords, Event.ended]
  | performed thread counters update event acts bodies notes todo quiet =>
      rw [pending, pending, event, sum_written quiet, ← Agenda.total_take callRecords todo,
        callRecords, zero_add]
      rfl
  | logged thread log bytes event silent bodies notes todo writes =>
      rw [pending, pending, event, writes, ← Agenda.total_take callRecords todo,
        List.map_singleton, List.sum_singleton, Option.map_none, Option.getD_none, add_zero,
        add_comm]
      rfl

/-- What has to be told is told by a body that is there, or by one that is dropped. -/
theorem tally_next {noted : Noted routes} (sound : noted.Sound setup) (input : Input) :
    (setup.noted.next noted input).notes.bodies.total (fun note => tally note.record) +
        tally (((setup.event noted input).map Event.ended).getD 0) =
      noted.notes.bodies.total (fun note => tally note.record) +
        ((setup.event noted input).map Event.due).getD 0 := by
  cases setup.steps sound input with
  | still event silent bodies notes
  | tunnelled thread counters sent received event silent bodies notes
  | performed thread counters update event acts bodies notes
  | logged thread log bytes event silent bodies notes
  | called action calm event acts bodies notes =>
      rw [notes, event]
      rfl
  | made thread asked answer front event silent bodies notes =>
      rw [notes, Slots.total_push]
      rcases event with ⟨-, event⟩ | ⟨-, event⟩ <;> rw [event] <;> exact add_zero _
  | forwarded thread asked upload event silent bodies notes =>
      have upload : tally (Note.upload asked).record = 0 := rfl
      rw [notes, Slots.total_push, event, upload, add_zero]
      rfl
  | read thread id body note arrived event silent there known bodies notes =>
      have change := noted.notes.bodies.total_modify (fun note => tally note.record) id
        fun note => some (note.poll (body.pollFrame arrived).1)
      rw [known, Option.bind_some, Slots.weigh_some, Slots.weigh_some, tally_poll,
        add_comm (tally note.record), ← add_assoc, add_left_inj] at change
      rw [notes, event, change]
      exact add_zero _
  | dropped thread id body note event silent there known bodies notes =>
      have change := noted.notes.bodies.total_remove (fun note => tally note.record) id
      rw [known, Slots.weigh_some] at change
      rw [notes, event]
      exact change.trans (add_zero _).symm

/-- Every answer to a request that is logged leads to one completion record of its own.  At any
point of any run, the records that are written, or that a thread has yet to write, are those of
the answers that have been dropped, each with its request, its status and the length of what was
read of it.  With those of the answers that are still there, they are as many as there have been
answers, and tell all data that has been read of them. -/
theorem answers_logged_once (setup : Setup routes) (state : State) (shared : Shared routes)
    (inputs : List Input) :
    let start := Running.start state shared
    let records := pending (setup.machine.run start inputs) +
      ((setup.machine.trace start inputs).map Output.written).sum
    let notes := (setup.noted.run start.noted inputs).notes
    records = setup.noted.total (fun noted input =>
        ((setup.event noted input).map Event.ended).getD 0) start.noted inputs ∧
      tally records + notes.bodies.total (fun note => tally note.record) =
        setup.noted.total (fun noted input =>
          ((setup.event noted input).map Event.due).getD 0) start.noted inputs := by
  intro start records notes
  have sound : start.noted.Sound setup := .start setup state shared
  have ends := @Machine.run_conserved _ _ _ setup.noted _ _ (Noted.Sound setup)
    (fun _ input sound => sound.next input) (fun noted => pending noted.running) _ _
    (fun _ input sound => pending_next sound input) start.noted sound inputs
  have told := @Machine.run_conserved _ _ _ setup.noted _ _ (Noted.Sound setup)
    (fun _ input sound => sound.next input)
    (fun noted => noted.notes.bodies.total fun note => tally note.record) _ _
    (fun _ input sound => tally_next sound input) start.noted sound inputs
  have first : pending start.noted.running = 0 := rfl
  have none : start.noted.notes.bodies.total (fun note => tally note.record) = 0 := rfl
  rw [Machine.total_outputs, setup.running_run, setup.trace_noted, first, zero_add] at ends
  rw [none, zero_add, ← Machine.map_total, ← ends, add_comm] at told
  exact ⟨ends, told⟩

end Proxemby.Traffic
