import Proxemby.Lib.Machine
import Proxemby.Stats.Reference

/-!
# Statistics shared by threads

Threads add to the counters at any time.  Flushes and reports take the history lock one
at a time, and read one shard after another while the additions go on: each atomic
access is a step of its own.
-/

namespace Proxemby.Stats

/-- A call that needs the history lock. -/
inductive Call where
  | flush (today : Str)
  | report (today : Str)

/-- The atomic loads that a call makes for each route and kind. -/
def Call.loads : Call → List Load
  | .flush _ => Counters.totalsLoads
  | .report _ => Counters.loads

/-- How far the holder of the lock is: the counters that are left, the first of them with
the loads that are left, and what it has read so far. -/
structure Progress (routes : List Str) where
  call : Call
  left : List (Fin routes.length × Kind)
  loads : List Load
  reading : Reading
  rows : Fin routes.length → Kind → KindReport

/-- The shards that threads have been given. -/
structure Threads where
  index : Nat → Option (Fin shardCount)
  next : Nat

/-- What the threads share; `holder` is the call that holds the lock. -/
structure Shared (routes : List Str) where
  stats : Stats routes
  threads : Threads
  holder : Option (Progress routes)
  disk : Disk

/-- What a thread does next: it adds to a counter, makes a call, or goes on with the call
that holds the lock. -/
inductive Action (routes : List Str) where
  | add (thread : Nat) (route : Fin routes.length) (kind : Kind) (update : Update)
  | call (call : Call)
  | go (env : Env)

inductive Answer where
  | flushed (result : Except Str Unit)
  | reported (report : Report)

/-- The shard of a thread: the first access of a thread takes the next one in turn. -/
def Threads.shardIndex (threads : Threads) (thread : Nat) : Fin shardCount × Threads :=
  match threads.index thread with
  | some shard => (shard, threads)
  | none =>
      let shard := ⟨threads.next % shardCount, Nat.mod_lt _ (by decide)⟩
      (shard, { index := Function.update threads.index thread (some shard)
                next := threads.next + 1 })

variable {routes : List Str}

def Progress.start (call : Call) : Progress routes where
  call
  left := pairs routes
  loads := call.loads
  reading := ⟨.zero, 0⟩
  rows := fun _ _ => ⟨.zero, .zero, .zero, 0⟩

/-- Turn to the next counters. -/
def Progress.turn (progress : Progress routes) (left : List (Fin routes.length × Kind)) :
    Progress routes :=
  { progress with left, loads := progress.call.loads, reading := ⟨.zero, 0⟩ }

namespace Shared

/-- One atomic update of a counter. -/
def add (shared : Shared routes) (thread : Nat) (route : Fin routes.length) (kind : Kind)
    (update : Update) : Shared routes :=
  let (shard, threads) := shared.threads.shardIndex thread
  let counters := shared.stats.counters route kind
  { shared with
    threads
    stats.counters := Function.update shared.stats.counters route
      (Function.update (shared.stats.counters route) kind
        (Function.update counters shard ((counters shard).update update))) }

variable (crates : StatsCrates)

/-- One step of the holder of the lock. -/
def go (shared : Shared routes) (env : Env) (progress : Progress routes) :
    Shared routes × List Answer :=
  match progress.left, progress.loads with
  | pair :: _, load :: loads =>
      let reading := (shared.stats.counters pair.1 pair.2).load progress.reading load
      ({ shared with holder := some { progress with loads, reading } }, [])
  | pair :: left, [] =>
      match progress.call with
      | .flush today =>
          let history := shared.stats.history.settle today pair progress.reading.totals
          ({ shared with stats.history := history, holder := some (progress.turn left) }, [])
      | .report today =>
          let row := shared.stats.history.kindReport today pair progress.reading
          let rows := Function.update progress.rows pair.1
            (Function.update (progress.rows pair.1) pair.2 row)
          ({ shared with holder := some { progress.turn left with rows } }, [])
  | [], _ =>
      match progress.call with
      | .flush _ =>
          let (history, disk, result) :=
            shared.stats.history.finish crates shared.stats.path shared.disk env
          ({ shared with stats.history := history, disk, holder := none }, [.flushed result])
      | .report today =>
          ({ shared with holder := none }, [.reported (shared.stats.report today progress.rows)])

section Go

variable {crates} {shared : Shared routes} {env : Env} {progress : Progress routes}
  {pair : Fin routes.length × Kind} {left : List (Fin routes.length × Kind)} {today : Str}

theorem go_load {load : Load} {loads : List Load} (pairs : progress.left = pair :: left)
    (more : progress.loads = load :: loads) :
    shared.go crates env progress = ({ shared with
      holder := some { progress with
        loads
        reading := (shared.stats.counters pair.1 pair.2).load progress.reading load } }, []) := by
  simp only [go, pairs, more]

theorem go_settle (pairs : progress.left = pair :: left) (done : progress.loads = [])
    (call : progress.call = .flush today) :
    shared.go crates env progress = ({ shared with
      stats.history := shared.stats.history.settle today pair progress.reading.totals
      holder := some (progress.turn left) }, []) := by
  simp only [go, pairs, done, call]

theorem go_row (pairs : progress.left = pair :: left) (done : progress.loads = [])
    (call : progress.call = .report today) :
    shared.go crates env progress = ({ shared with
      holder := some { progress.turn left with
        rows := Function.update progress.rows pair.1
          (Function.update (progress.rows pair.1) pair.2
            (shared.stats.history.kindReport today pair progress.reading)) } }, []) := by
  simp only [go, pairs, done, call]

theorem go_flushed (all : progress.left = []) (call : progress.call = .flush today) :
    shared.go crates env progress =
      ({ shared with
          stats.history := { shared.stats.history with days := shared.stats.history.days.evict }
          disk :=
            (shared.stats.history.finish crates shared.stats.path shared.disk env).2.1
          holder := none },
        [.flushed (shared.stats.history.finish crates shared.stats.path shared.disk env).2.2]) := by
  rw [← shared.stats.history.finish_fst crates shared.stats.path shared.disk env]
  simp only [go, all, call]

theorem go_reported (all : progress.left = []) (call : progress.call = .report today) :
    shared.go crates env progress = ({ shared with holder := none },
      [.reported (shared.stats.report today progress.rows)]) := by
  simp only [go, all, call]

end Go

def step (shared : Shared routes) : Action routes → Shared routes × List Answer
  | .add thread route kind update => (shared.add thread route kind update, [])
  | .call call =>
      match shared.holder with
      -- The thread waits for the lock.
      | some _ => (shared, [])
      | none => ({ shared with holder := some (.start call) }, [])
  | .go env =>
      match shared.holder with
      | some progress => shared.go crates env progress
      | none => (shared, [])

def machine : Machine (Shared routes) (Action routes) Answer where
  step := step crates

/-- The sum of a counter over its shards. -/
def current (shared : Shared routes) (pair : Fin routes.length × Kind) (field : Field) : Nat :=
  ∑ shard, (shared.stats.counters pair.1 pair.2).column field shard

/-- The value of a counter that is in the history already. -/
def flushed (shared : Shared routes) (pair : Fin routes.length × Kind) (field : Field) : Nat :=
  (shared.stats.history.flushed pair.1 pair.2).get field

/-- The stored amount of all dates. -/
def stored (shared : Shared routes) (pair : Fin routes.length × Kind) (field : Field) : Nat :=
  shared.stats.history.days.sum (routes.get pair.1) pair.2.name field

/-- What an action adds to a counter. -/
def added (pair : Fin routes.length × Kind) (field : Field) (_ : Shared routes) :
    Action routes → Nat
  | .add _ route kind update => if (route, kind) = pair then update.amount field else 0
  | _ => 0

/-- What an action takes out of the history: the dates that the end of a flush evicts. -/
def evicted (pair : Fin routes.length × Kind) (field : Field) (shared : Shared routes) :
    Action routes → Nat
  | .go _ =>
      match shared.holder with
      | some { call := .flush _, left := [], .. } =>
          shared.stats.history.days.evictedAmount (routes.get pair.1) pair.2.name field
      | _ => 0
  | _ => 0

/-! ## Readings are between the last flush and the counters -/

/-- What was flushed has been read off the shards, and so has what the holder of the lock
has read so far, after that. -/
structure Sound (shared : Shared routes) : Prop where
  covers : ∀ pair field, Sweep.Covers
    ((shared.stats.counters pair.1 pair.2).column field) (shared.flushed pair field)
  loads : ∀ progress, shared.holder = some progress → progress.loads.Nodup
  reads : ∀ progress pair left, shared.holder = some progress → progress.left = pair :: left →
    ∀ field, Sweep.Reads ((shared.stats.counters pair.1 pair.2).column field)
      (shared.flushed pair field) (progress.reading.totals.get field)
      (Counters.shardsOf field progress.loads)

/-- An update changes one shard of one counter. -/
theorem column_add (shared : Shared routes) (thread : Nat) (route : Fin routes.length)
    (kind : Kind) (update : Update) (pair : Fin routes.length × Kind) (field : Field)
    (shard : Fin shardCount) :
    ((shared.add thread route kind update).stats.counters pair.1 pair.2).column field shard =
      (shared.stats.counters pair.1 pair.2).column field shard +
        if shard = (shared.threads.shardIndex thread).1 then
          added pair field shared (.add thread route kind update)
        else 0 := by
  exact shared.stats.column_add route kind (shared.threads.shardIndex thread).1 update pair field
    shard

theorem column_le_add (shared : Shared routes) (thread : Nat) (route : Fin routes.length)
    (kind : Kind) (update : Update) (pair : Fin routes.length × Kind) (field : Field) :
    (shared.stats.counters pair.1 pair.2).column field ≤
      ((shared.add thread route kind update).stats.counters pair.1 pair.2).column field := by
  intro shard
  rw [column_add]
  exact Nat.le_add_right _ _

theorem current_add (shared : Shared routes) (thread : Nat) (route : Fin routes.length)
    (kind : Kind) (update : Update) (pair : Fin routes.length × Kind) (field : Field) :
    (shared.add thread route kind update).current pair field =
      shared.current pair field + added pair field shared (.add thread route kind update) := by
  simp [current, column_add, Finset.sum_add_distrib]

/-- The loads of a call reach every shard of every counter once. -/
theorem Call.mem_loads (call : Call) (shard : Fin shardCount) (field : Field) :
    .total shard field ∈ call.loads := by
  cases call with
  | flush today => exact Counters.mem_totalsLoads shard field
  | report today => exact Counters.mem_loads _

theorem Call.loads_nodup (call : Call) : call.loads.Nodup := by
  cases call with
  | flush today => exact Counters.totalsLoads_nodup
  | report today => exact Counters.loads_nodup

namespace Sound

variable {shared : Shared routes}

/-- A call that starts to read goes on from the last flush. -/
theorem fresh
    (covers : ∀ pair field, Sweep.Covers
      ((shared.stats.counters pair.1 pair.2).column field) (shared.flushed pair field))
    (begins : ∀ progress, shared.holder = some progress →
      progress.loads = progress.call.loads ∧ progress.reading = ⟨.zero, 0⟩) : shared.Sound where
  covers := covers
  loads progress held := by
    rw [(begins progress held).1]
    exact Call.loads_nodup _
  reads progress pair left held _ field := by
    obtain ⟨loads, reading⟩ := begins progress held
    rw [loads, reading, Totals.get_zero]
    exact (covers pair field).start fun shard =>
      Counters.mem_shardsOf.mpr (Call.mem_loads _ shard field)

/-- At the end of a reading, the last flush is not above it, and no shard is below it. -/
theorem finish (sound : shared.Sound) {progress : Progress routes}
    (held : shared.holder = some progress) {pair : Fin routes.length × Kind}
    {left : List (Fin routes.length × Kind)} (pairs : progress.left = pair :: left)
    (done : progress.loads = []) (field : Field) :
    shared.flushed pair field ≤ progress.reading.totals.get field ∧
      progress.reading.totals.get field ≤ shared.current pair field := by
  have reads := sound.reads progress pair left held pairs field
  rw [done] at reads
  exact ⟨reads.finish.1, reads.finish.2.le⟩

theorem add (sound : shared.Sound) (thread : Nat) (route : Fin routes.length) (kind : Kind)
    (update : Update) : (shared.add thread route kind update).Sound where
  covers pair field := (sound.covers pair field).grow (shared.column_le_add _ _ _ _ pair field)
  loads := sound.loads
  reads progress pair left held pairs field :=
    (sound.reads progress pair left held pairs field).grow
      (shared.column_le_add _ _ _ _ pair field)

variable (crates : StatsCrates)

theorem go (sound : shared.Sound) (env : Env) {progress : Progress routes}
    (held : shared.holder = some progress) : (shared.go crates env progress).1.Sound := by
  cases pairs : progress.left with
  | nil =>
      cases call : progress.call with
      | flush today =>
          rw [go_flushed pairs call]
          refine fresh ?_ (fun _ none => by cases none)
          exact sound.covers
      | report today =>
          rw [go_reported pairs call]
          exact fresh sound.covers (fun _ none => by cases none)
  | cons pair left =>
      cases loads : progress.loads with
      | cons load rest =>
          rw [go_load pairs loads]
          have nodup := sound.loads progress held
          rw [loads] at nodup
          refine ⟨sound.covers, ?_, ?_⟩
          · rintro _ ⟨⟩
            exact (List.nodup_cons.mp nodup).2
          · rintro _ pair' left' ⟨⟩ pairs' field
            have same := pairs.symm.trans pairs'
            obtain ⟨rfl, rfl⟩ := List.cons.inj same
            have reads := sound.reads progress pair left held pairs field
            rw [loads] at reads
            exact Counters.reads_load nodup reads
      | nil =>
          cases call : progress.call with
          | flush today =>
              rw [go_settle pairs loads call]
              refine fresh ?_ ?_
              · intro other field
                rw [flushed, History.flushed_settle]
                split
                · next same =>
                    have reads := sound.reads progress pair left held pairs field
                    rw [loads] at reads
                    rw [same]
                    exact reads.finish.2
                · exact sound.covers other field
              · rintro _ ⟨⟩
                exact ⟨rfl, rfl⟩
          | report today =>
              rw [go_row pairs loads call]
              refine fresh sound.covers ?_
              rintro _ ⟨⟩
              exact ⟨rfl, rfl⟩

theorem next (sound : shared.Sound) (action : Action routes) :
    ((machine crates).next shared action).Sound := by
  cases action with
  | add thread route kind update => exact sound.add thread route kind update
  | call call =>
      cases held : shared.holder with
      | some progress => simpa [Machine.next, machine, step, held] using sound
      | none =>
          simp only [Machine.next, machine, step, held]
          refine fresh sound.covers ?_
          rintro _ ⟨⟩
          exact ⟨rfl, rfl⟩
  | go env =>
      cases held : shared.holder with
      | some progress => simpa [Machine.next, machine, step, held] using sound.go crates env held
      | none => simpa [Machine.next, machine, step, held] using sound

end Sound

/-! ## Conservation -/

theorem flushed_le_current {shared : Shared routes} (sound : shared.Sound)
    (pair : Fin routes.length × Kind) (field : Field) :
    shared.flushed pair field ≤ shared.current pair field := (sound.covers pair field).le

/-- What is stored, and what has not been flushed yet. -/
def stock (pair : Fin routes.length × Kind) (field : Field) (shared : Shared routes) : Nat :=
  shared.stored pair field + (shared.current pair field - shared.flushed pair field)

/-- Different routes and kinds have different entries. -/
theorem entry_iff (distinct : routes.Nodup) (pair other : Fin routes.length × Kind) :
    routes.get pair.1 = routes.get other.1 ∧ pair.2.name = other.2.name ↔ pair = other := by
  rw [Kind.name_inj, distinct.injective_get.eq_iff, Prod.ext_iff]

variable (crates : StatsCrates)

/-- The end of a reading moves what is new from the counters to the history. -/
theorem stock_settle (distinct : routes.Nodup) {shared : Shared routes} {today : Str}
    {pair : Fin routes.length × Kind} {totals : Totals}
    (above : ∀ field, shared.flushed pair field ≤ totals.get field)
    (below : ∀ field, totals.get field ≤ shared.current pair field)
    (other : Fin routes.length × Kind) (field : Field) (holder : Option (Progress routes)) :
    stock other field { shared with
      stats.history := shared.stats.history.settle today pair totals
      holder } = shared.stock other field := by
  have upper := above field
  have lower := below field
  simp only [stock, stored, flushed, current] at upper lower ⊢
  rw [History.sum_settle, History.flushed_settle]
  by_cases same : other = pair
  · rw [if_pos ((entry_iff distinct other pair).mpr same), if_pos same, same]
    omega
  · rw [if_neg (mt (entry_iff distinct other pair).mp same), if_neg same, Nat.add_zero]

theorem stock_go (distinct : routes.Nodup) {shared : Shared routes} (sound : shared.Sound)
    (env : Env) {progress : Progress routes} (held : shared.holder = some progress)
    (pair : Fin routes.length × Kind) (field : Field) :
    stock pair field (shared.go crates env progress).1 + evicted pair field shared (.go env) =
      stock pair field shared := by
  cases pairs : progress.left with
  | nil =>
      cases call : progress.call with
      | flush today =>
          have taken : evicted pair field shared (.go env) =
              shared.stats.history.days.evictedAmount (routes.get pair.1) pair.2.name field := by
            obtain ⟨call', left', loads, reading, rows⟩ := progress
            dsimp only at pairs call
            subst pairs call
            simp only [evicted, held]
          rw [go_flushed pairs call, taken]
          simp only [stock, stored, flushed, current]
          have kept := shared.stats.history.days.sum_evict (routes.get pair.1) pair.2.name field
          omega
      | report today =>
          have taken : evicted pair field shared (.go env) = 0 := by
            obtain ⟨call', left', loads, reading, rows⟩ := progress
            dsimp only at call
            subst call
            simp only [evicted, held]
          rw [go_reported pairs call, taken]
          rfl
  | cons next left =>
      have taken : evicted pair field shared (.go env) = 0 := by
        obtain ⟨call', left', loads, reading, rows⟩ := progress
        dsimp only at pairs
        subst pairs
        simp only [evicted, held]
      rw [taken, Nat.add_zero]
      cases loads : progress.loads with
      | cons load rest =>
          rw [go_load pairs loads]
          rfl
      | nil =>
          cases call : progress.call with
          | flush today =>
              rw [go_settle pairs loads call]
              exact stock_settle distinct (fun field => (sound.finish held pairs loads field).1)
                (fun field => (sound.finish held pairs loads field).2) pair field _
          | report today =>
              rw [go_row pairs loads call]
              rfl

theorem stock_next (distinct : routes.Nodup) {shared : Shared routes} (sound : shared.Sound)
    (action : Action routes) (pair : Fin routes.length × Kind) (field : Field) :
    stock pair field ((machine crates).next shared action) + evicted pair field shared action =
      stock pair field shared + added pair field shared action := by
  cases action with
  | add thread route kind update =>
      have below := flushed_le_current sound pair field
      change stock pair field (shared.add thread route kind update) + 0 = _
      rw [stock, current_add, stock]
      change shared.stored pair field + (_ - shared.flushed pair field) + 0 = _
      omega
  | call call =>
      cases held : shared.holder with
      | some progress => simp [Machine.next, machine, step, held, evicted, added]
      | none =>
          simp only [Machine.next, machine, step, held, evicted, added, add_zero]
          rfl
  | go env =>
      cases held : shared.holder with
      | some progress =>
          have balance := stock_go crates distinct sound env held pair field
          simpa [Machine.next, machine, step, held, added] using balance
      | none => simp [Machine.next, machine, step, held, evicted, added]

theorem current_next (shared : Shared routes) (action : Action routes)
    (pair : Fin routes.length × Kind) (field : Field) :
    ((machine crates).next shared action).current pair field =
      shared.current pair field + added pair field shared action := by
  have idle (env : Env) (progress : Progress routes) :
      (shared.go crates env progress).1.stats.counters = shared.stats.counters := by
    rw [go]
    split
    · rfl
    · split <;> rfl
    · split <;> rfl
  cases action with
  | add thread route kind update => exact shared.current_add thread route kind update pair field
  | call call =>
      cases held : shared.holder with
      | some progress => simp [Machine.next, machine, step, held, added]
      | none =>
          simp only [Machine.next, machine, step, held, added, add_zero]
          rfl
  | go env =>
      cases held : shared.holder with
      | some progress => simp [Machine.next, machine, step, held, added, current, idle]
      | none => simp [Machine.next, machine, step, held, added]

/-! ## One call -/

/-- The states from the moment at which a call takes the lock until it gives the lock back,
while other threads do what is allowed. -/
inductive Serves (allowed : Action routes → Prop) (start : Shared routes) (call : Call) :
    Shared routes → Prop where
  | taken (free : start.holder = none) :
      Serves allowed start call ((machine crates).next start (.call call))
  | goes {shared : Shared routes} (before : Serves allowed start call shared)
      {action : Action routes} (ok : allowed action)
      (held : ((machine crates).next shared action).holder ≠ none) :
      Serves allowed start call ((machine crates).next shared action)

/-- There has been no traffic since the last flush. -/
def Idle (before after : Shared routes) (pair : Fin routes.length × Kind) : Prop :=
  ∀ field, after.current pair field = before.flushed pair field

/-- What the readings of a flush do to the history: they only touch the entries of the day
for routes with new traffic. -/
structure Settles (today : Str) (before after : Shared routes) (settled : Days) : Prop where
  dates : ∀ date, date ≠ today → settled.lookup date = before.stats.history.days.lookup date
  entries : ∀ route, (∀ pair, routes.get pair.1 = route → Idle before after pair) →
    (settled.lookup today).bind (·.lookup route) =
      (before.stats.history.days.lookup today).bind (·.lookup route)
  nothing : (∀ pair, Idle before after pair) → settled = before.stats.history.days

/-- A flush in progress. -/
structure Flushing (today : Str) (before shared : Shared routes) : Prop where
  holder : ∃ progress, shared.holder = some progress ∧ progress.call = .flush today
  sound : shared.Sound
  later : ∀ pair field, before.flushed pair field ≤ shared.flushed pair field
  settles : Settles today before shared shared.stats.history.days

namespace Flushing

variable {today : Str} {before shared : Shared routes}

/-- Counters without traffic have been idle all along. -/
theorem idle_of_next (flushing : Flushing today before shared) {action : Action routes}
    {pair : Fin routes.length × Kind}
    (idle : Idle before ((machine crates).next shared action) pair) :
    Idle before shared pair := by
  intro field
  have after := idle field
  have later := flushing.later pair field
  have below := flushed_le_current flushing.sound pair field
  rw [current_next] at after
  omega

/-- A reading of idle counters finds nothing new. -/
theorem nothing_new (flushing : Flushing today before shared) {progress : Progress routes}
    (held : shared.holder = some progress) {pair : Fin routes.length × Kind}
    {left : List (Fin routes.length × Kind)} (pairs : progress.left = pair :: left)
    (done : progress.loads = []) (idle : Idle before shared pair) :
    progress.reading.totals.minus (shared.stats.history.flushed pair.1 pair.2) = .zero := by
  refine Totals.ext_get fun field => ?_
  have upper := (flushing.sound.finish held pairs done field).2
  have later := flushing.later pair field
  rw [Totals.get_minus, Totals.get_zero]
  rw [idle field] at upper
  exact Nat.sub_eq_zero_of_le (upper.trans later)

/-- A step that leaves the history as it is. -/
theorem keep (flushing : Flushing today before shared) {action : Action routes}
    (history : ((machine crates).next shared action).stats.history = shared.stats.history)
    (holder : ∃ progress, ((machine crates).next shared action).holder = some progress ∧
      progress.call = .flush today) :
    Flushing today before ((machine crates).next shared action) where
  holder := holder
  sound := flushing.sound.next crates action
  later pair field := by
    have later := flushing.later pair field
    simp only [flushed, history] at later ⊢
    exact later
  settles := by
    rw [history]
    refine ⟨flushing.settles.dates, ?_, ?_⟩
    · intro route idle
      exact flushing.settles.entries route fun pair same =>
        flushing.idle_of_next crates (idle pair same)
    · intro idle
      exact flushing.settles.nothing fun pair => flushing.idle_of_next crates (idle pair)

/-- The end of a reading. -/
theorem settle (flushing : Flushing today before shared) {progress : Progress routes}
    (held : shared.holder = some progress) (call : progress.call = .flush today)
    {pair : Fin routes.length × Kind} {left : List (Fin routes.length × Kind)}
    (pairs : progress.left = pair :: left) (done : progress.loads = []) (env : Env) :
    Flushing today before (shared.go crates env progress).1 := by
  have sound := flushing.sound.go crates env held
  have reads := flushing.sound.finish held pairs done
  rw [go_settle pairs done call] at sound ⊢
  refine ⟨⟨_, rfl, call⟩, sound, ?_, ?_, ?_, ?_⟩
  · intro other field
    have later := flushing.later other field
    have above := (reads field).1
    simp only [flushed] at later above ⊢
    rw [History.flushed_settle]
    split
    · next same =>
        rw [same] at later ⊢
        exact later.trans above
    · exact later
  · intro date other
    exact (History.lookup_settle other _ _ _).trans (flushing.settles.dates date other)
  · intro route idle
    refine Eq.trans ?_ (flushing.settles.entries route idle)
    by_cases same : routes.get pair.1 = route
    · dsimp only
      rw [History.days_settle_zero (flushing.nothing_new held pairs done (idle pair same))]
    · exact History.lookup_settle_route today _ today (Ne.symm same)
  · intro idle
    refine Eq.trans ?_ (flushing.settles.nothing idle)
    exact History.days_settle_zero (flushing.nothing_new held pairs done (idle pair))

theorem next (flushing : Flushing today before shared) {action : Action routes}
    (held : ((machine crates).next shared action).holder ≠ none) :
    Flushing today before ((machine crates).next shared action) := by
  obtain ⟨progress, held', call⟩ := flushing.holder
  cases action with
  | add thread route kind update => exact flushing.keep crates rfl ⟨progress, held', call⟩
  | call other =>
      have same : (machine crates).next shared (.call other) = shared := by
        simp [Machine.next, machine, step, held']
      rw [same]
      exact flushing
  | go env =>
      have goes : (machine crates).next shared (.go env) = (shared.go crates env progress).1 := by
        simp [Machine.next, machine, step, held']
      cases pairs : progress.left with
      | nil =>
          rw [goes, go_flushed pairs call] at held
          exact absurd rfl held
      | cons pair left =>
          cases loads : progress.loads with
          | cons load rest =>
              apply flushing.keep crates
              · rw [goes, go_load pairs loads]
              · rw [goes, go_load pairs loads]
                exact ⟨_, rfl, call⟩
          | nil =>
              rw [goes]
              exact flushing.settle crates held' call pairs loads env

/-- At the end of the flush old days are evicted, and nothing else happens. -/
theorem finish (flushing : Flushing today before shared) {env : Env}
    (free : ((machine crates).next shared (.go env)).holder = none) :
    ∃ settled, Settles today before ((machine crates).next shared (.go env)) settled ∧
      Days.Evicted settled ((machine crates).next shared (.go env)).stats.history.days := by
  obtain ⟨progress, held, call⟩ := flushing.holder
  have goes : (machine crates).next shared (.go env) = (shared.go crates env progress).1 := by
    simp [Machine.next, machine, step, held]
  rw [goes] at free ⊢
  cases pairs : progress.left with
  | nil =>
      rw [go_flushed pairs call]
      exact ⟨shared.stats.history.days,
        ⟨flushing.settles.dates, flushing.settles.entries, flushing.settles.nothing⟩,
        shared.stats.history.days.evict_evicted⟩
  | cons pair left =>
      cases loads : progress.loads with
      | cons load rest =>
          rw [go_load pairs loads] at free
          cases free
      | nil =>
          rw [go_settle pairs loads call] at free
          cases free

end Flushing

theorem Serves.flushing {today : Str} {allowed : Action routes → Prop}
    {before shared : Shared routes} (sound : before.Sound)
    (serves : Serves crates allowed before (.flush today) shared) :
    Flushing today before shared := by
  induction serves with
  | taken free =>
      have sound' := sound.next crates (.call (.flush today))
      have taken : (machine crates).next before (.call (.flush today)) =
          { before with holder := some (.start (.flush today)) } := by
        simp [Machine.next, machine, step, free]
      rw [taken] at sound' ⊢
      exact ⟨⟨_, rfl, rfl⟩, sound', fun _ _ => le_rfl, fun _ _ => rfl, fun _ _ => rfl,
        fun _ => rfl⟩
  | goes before' ok held ih => exact ih.next crates held

/-- A report in progress while no addition runs: what it still has to read will complete
the rows. -/
structure Reporting (today : Str) (before shared : Shared routes) : Prop where
  stats : shared.stats = before.stats
  progress : ∃ progress, shared.holder = some progress ∧ progress.call = .report today ∧
    (∀ pair, pair ∉ progress.left → progress.rows pair.1 pair.2 =
      before.stats.history.kindReport today pair (before.stats.counters pair.1 pair.2).read) ∧
    (∀ pair left, progress.left = pair :: left →
      progress.loads.foldl (before.stats.counters pair.1 pair.2).load progress.reading =
        (before.stats.counters pair.1 pair.2).read)

/-- Everything but an addition. -/
def Quiet : Action routes → Prop
  | .add .. => False
  | _ => True

namespace Reporting

variable {today : Str} {before shared : Shared routes}

theorem go (reporting : Reporting today before shared) {env : Env} {progress : Progress routes}
    (holds : shared.holder = some progress)
    (held : (shared.go crates env progress).1.holder ≠ none) :
    Reporting today before (shared.go crates env progress).1 := by
  obtain ⟨stats, progress', holds', call, rows, reads⟩ := reporting
  rw [holds, Option.some.injEq] at holds'
  subst holds'
  cases pairs : progress.left with
  | nil =>
      rw [go_reported pairs call] at held
      exact absurd rfl held
  | cons pair left =>
      cases loads : progress.loads with
      | cons load rest =>
          rw [go_load pairs loads]
          refine ⟨stats, _, rfl, call, rows, ?_⟩
          intro pair' left' pairs'
          have same := pairs.symm.trans pairs'
          obtain ⟨rfl, rfl⟩ := List.cons.inj same
          have whole := reads pair left pairs
          rw [loads, List.foldl_cons] at whole
          rw [stats]
          exact whole
      | nil =>
          have whole := reads pair left pairs
          rw [loads, List.foldl_nil] at whole
          rw [go_row pairs loads call]
          refine ⟨stats, _, rfl, call, ?_, ?_⟩
          · intro other out
            by_cases same : other = pair
            · subst same
              simp only [Function.update_self]
              rw [whole, stats]
            · have kept : Function.update progress.rows pair.1
                  (Function.update (progress.rows pair.1) pair.2
                    (shared.stats.history.kindReport today pair progress.reading))
                  other.1 other.2 = progress.rows other.1 other.2 := by
                by_cases sameRoute : other.1 = pair.1
                · have differ : other.2 ≠ pair.2 := fun kind => same (Prod.ext sameRoute kind)
                  rw [sameRoute, Function.update_self, Function.update_of_ne differ]
                · rw [Function.update_of_ne sameRoute]
              dsimp only
              rw [kept]
              apply rows
              rw [pairs, List.mem_cons, not_or]
              exact ⟨same, out⟩
          · intro other left' pairs'
            dsimp only [Progress.turn]
            rw [call]
            rfl

theorem next (reporting : Reporting today before shared) {action : Action routes}
    (quiet : Quiet action) (held : ((machine crates).next shared action).holder ≠ none) :
    Reporting today before ((machine crates).next shared action) := by
  obtain ⟨progress, holds, -⟩ := reporting.progress
  cases action with
  | add thread route kind update => exact quiet.elim
  | call other => simpa [Machine.next, machine, step, holds] using reporting
  | go env =>
      simp only [Machine.next, machine, step, holds] at held ⊢
      exact reporting.go crates holds held

/-- The report that is given at the end. -/
theorem finish (reporting : Reporting today before shared) {env : Env}
    (free : ((machine crates).next shared (.go env)).holder = none) :
    (machine crates).outputs shared (.go env) = [.reported (before.stats.reportOn today)] := by
  obtain ⟨stats, progress, holds, call, rows, reads⟩ := reporting
  simp only [Machine.next, Machine.outputs, machine, step, holds] at free ⊢
  cases pairs : progress.left with
  | nil =>
      rw [go_reported pairs call, stats, Stats.reportOn]
      have all : progress.rows = fun route kind => before.stats.history.kindReport today
          (route, kind) (before.stats.counters route kind).read := by
        funext route kind
        exact rows (route, kind) (by simp [pairs])
      rw [all]
  | cons pair left =>
      cases loads : progress.loads with
      | cons load rest =>
          rw [go_load pairs loads] at free
          cases free
      | nil =>
          rw [go_row pairs loads call] at free
          cases free

end Reporting

theorem Serves.reporting {today : Str} {before shared : Shared routes}
    (serves : Serves crates Quiet before (.report today) shared) :
    Reporting today before shared := by
  induction serves with
  | taken free =>
      simp only [Machine.next, machine, step, free]
      refine ⟨rfl, _, rfl, rfl, ?_, fun _ _ _ => rfl⟩
      intro pair out
      exact absurd (mem_pairs routes pair) out
  | goes before' ok held ih => exact ih.next crates ok held

/-- A call comes to its end by its own steps. -/
theorem Serves.returns {allowed : Action routes → Prop} {before : Shared routes} {call : Call}
    (env : Env) (goes : allowed (.go env)) {shared : Shared routes}
    (serves : Serves crates allowed before call shared) {progress : Progress routes}
    (holds : shared.holder = some progress) :
    ∃ served, Serves crates allowed before call served ∧
      ((machine crates).next served (.go env)).holder = none := by
  have step {shared : Shared routes} {progress : Progress routes}
      (holds : shared.holder = some progress) :
      (machine crates).next shared (.go env) = (shared.go crates env progress).1 := by
    simp only [Machine.next, machine, Shared.step, holds]
  generalize all : progress.left = left
  induction left generalizing shared progress with
  | nil =>
      refine ⟨shared, serves, ?_⟩
      rw [step holds]
      cases own : progress.call with
      | flush today => rw [go_flushed all own]
      | report today => rw [go_reported all own]
  | cons pair left later =>
      generalize reads : progress.loads = loads
      induction loads generalizing shared progress with
      | nil =>
          have next := step holds
          cases own : progress.call with
          | flush today =>
              rw [go_settle all reads own] at next
              exact later (serves.goes goes (by simp [next])) (by rw [next]) rfl
          | report today =>
              rw [go_row all reads own] at next
              exact later (serves.goes goes (by simp [next])) (by rw [next]) rfl
      | cons load rest inner =>
          have next := step holds
          rw [go_load all reads] at next
          exact inner (serves.goes goes (by simp [next])) (congrArg holder next) all rfl

/-! ## All runs -/

/-- The shared state before any thread has done anything. -/
def start (stats : Stats routes) (threads : Threads) (disk : Disk) : Shared routes where
  stats
  threads
  holder := none
  disk

theorem sound_start (path : Option Str) (startedAt : Str) (days : Days) (threads : Threads)
    (disk : Disk) : (start (.fresh routes path startedAt days) threads disk).Sound := by
  refine .fresh ?_ (fun _ none => by cases none)
  intro pair field
  refine ⟨0, ?_, ?_⟩
  · intro shard
    exact Nat.zero_le _
  · simp [flushed, start, Stats.fresh]

theorem current_start (path : Option Str) (startedAt : Str) (days : Days) (threads : Threads)
    (disk : Disk) (pair : Fin routes.length × Kind) (field : Field) :
    (start (.fresh routes path startedAt days) threads disk).current pair field = 0 := by
  refine Finset.sum_eq_zero fun shard _ => ?_
  exact Shard.get_zero field

theorem sound_run {shared : Shared routes} (sound : shared.Sound) (actions : List (Action routes)) :
    ((machine crates).run shared actions).Sound :=
  (machine crates).run_invariant Sound (fun _ action sound => sound.next crates action) sound
    actions

theorem current_run (shared : Shared routes) (actions : List (Action routes))
    (pair : Fin routes.length × Kind) (field : Field) :
    ((machine crates).run shared actions).current pair field =
      shared.current pair field + (machine crates).total (added pair field) shared actions := by
  have balance := @Machine.run_conserved _ _ _ (machine crates) _ _ (fun _ => True)
    (fun _ _ _ => trivial) (current · pair field) (added pair field) (fun _ _ => 0)
    (fun state action _ => (add_zero _).trans (current_next crates state action pair field))
    shared trivial actions
  rwa [(machine crates).total_zero, add_zero] at balance

theorem stock_run (distinct : routes.Nodup) {shared : Shared routes} (sound : shared.Sound)
    (actions : List (Action routes)) (pair : Fin routes.length × Kind) (field : Field) :
    stock pair field ((machine crates).run shared actions) +
        (machine crates).total (evicted pair field) shared actions =
      stock pair field shared + (machine crates).total (added pair field) shared actions :=
  (machine crates).run_conserved (fun _ action sound => sound.next crates action) (stock pair field)
    (fun _ action sound => stock_next crates distinct sound action pair field) sound actions

/-- What a row of a report has when nothing comes in between. -/
theorem get_row (shared : Shared routes) (today : Str) (pair : Fin routes.length × Kind)
    (field : Field) {reading : Reading}
    (read : reading.totals.get field = shared.current pair field) :
    (shared.stats.history.kindReport today pair reading).sinceStart.get field =
        shared.current pair field ∧
      (shared.stats.history.kindReport today pair reading).today.get field =
        (shared.stats.history.days.stored today (routes.get pair.1) pair.2.name).get field +
          (shared.current pair field - shared.flushed pair field) ∧
      (shared.stats.history.kindReport today pair reading).month.get field =
        (shared.current pair field - shared.flushed pair field) +
          ∑ date ∈ shared.stats.history.days.keys with (today.take 7).isPrefixOf date,
            (shared.stats.history.days.stored date (routes.get pair.1) pair.2.name).get field := by
  refine ⟨read, ?_, ?_⟩
  · simp only [History.kindReport, Totals.get_add, Totals.get_minus, read]
    rfl
  · rw [get_month, read]
    rfl

/-- Conservation of traffic, for any history at the start and any order in which threads
add to counters, call and go on.  Between calls, what is stored, was evicted and has not
been flushed is what was stored and has been added.  No reading is below the last flush.
A flush touches only the entries of its day with new traffic, but for the eviction of the
smallest dates.  A report returns; when no addition runs, it has the traffic since the
start, and the stored and pending traffic of the day and of its month.  The sums are natural
numbers, which `u64` has below `2 ^ 64`: with its additions the run is the same up to there, by
`Shared.runU64_of_lt`. -/
theorem traffic_conserved (distinct : routes.Nodup) (path : Option Str) (startedAt : Str)
    (days : Days) (threads : Threads) (disk : Disk) (actions : List (Action routes)) :
    let start := Shared.start (.fresh routes path startedAt days) threads disk
    let shared := (machine crates).run start actions
    (shared.holder = none → ∀ pair field,
      shared.flushed pair field ≤ shared.current pair field ∧
        shared.stored pair field + (machine crates).total (evicted pair field) start actions +
            (shared.current pair field - shared.flushed pair field) =
          start.stored pair field + (machine crates).total (added pair field) start actions) ∧
    (∀ progress pair left, shared.holder = some progress → progress.left = pair :: left →
      progress.loads = [] →
      ∀ field, shared.flushed pair field ≤ progress.reading.totals.get field) ∧
    (∀ today served env, Serves crates (fun _ => True) shared (.flush today) served →
      ((machine crates).next served (.go env)).holder = none →
      ∃ settled, Settles today shared ((machine crates).next served (.go env)) settled ∧
        Days.Evicted settled ((machine crates).next served (.go env)).stats.history.days) ∧
    ∀ today env,
      (shared.holder = none → ∃ served, Serves crates Quiet shared (.report today) served ∧
        ((machine crates).next served (.go env)).holder = none) ∧
      ∀ served, Serves crates Quiet shared (.report today) served →
        ((machine crates).next served (.go env)).holder = none →
        ∃ rows, (machine crates).outputs served (.go env) =
            [.reported (shared.stats.report today rows)] ∧
          ∀ pair field,
            (rows pair.1 pair.2).sinceStart.get field =
              (machine crates).total (added pair field) start actions ∧
            (rows pair.1 pair.2).today.get field =
              (shared.stats.history.days.stored today (routes.get pair.1) pair.2.name).get field +
                (shared.current pair field - shared.flushed pair field) ∧
            (rows pair.1 pair.2).month.get field =
              (shared.current pair field - shared.flushed pair field) +
                ∑ date ∈ shared.stats.history.days.keys with (today.take 7).isPrefixOf date,
                  (shared.stats.history.days.stored date (routes.get pair.1)
                    pair.2.name).get field := by
  intro start shared
  have sound₀ : start.Sound := sound_start path startedAt days threads disk
  have sound : shared.Sound := sound_run crates sound₀ actions
  have traffic (pair field) :
      shared.current pair field = (machine crates).total (added pair field) start actions :=
    (current_run crates start actions pair field).trans (by rw [current_start, zero_add])
  refine ⟨?_, ?_, ?_, ?_⟩
  · intro free pair field
    refine ⟨flushed_le_current sound pair field, ?_⟩
    have balance : stock pair field shared + (machine crates).total (evicted pair field) start
          actions =
        stock pair field start + (machine crates).total (added pair field) start actions :=
      stock_run crates distinct sound₀ actions pair field
    have first : stock pair field start = start.stored pair field := by
      rw [stock, current_start, Nat.zero_sub, Nat.add_zero]
    rw [first, stock] at balance
    omega
  · intro progress pair left held pairs done field
    exact (sound.finish held pairs done field).1
  · intro today served env serves free
    exact (serves.flushing crates sound).finish crates free
  · intro today env
    constructor
    · intro free
      have holds : ((machine crates).next shared (.call (.report today))).holder =
          some (.start (.report today)) := by
        simp only [Machine.next, machine, step, free]
      exact (Serves.taken free).returns crates env trivial holds
    · intro served serves free
      refine ⟨fun route kind => shared.stats.history.kindReport today (route, kind)
        (shared.stats.counters route kind).read, (serves.reporting crates).finish crates free, ?_⟩
      rintro ⟨route, kind⟩ field
      rw [← traffic]
      exact get_row shared today (route, kind) field (Counters.get_read _ field)

/-- Two threads add while a flush reads: what comes too late for it is pending. -/
theorem traffic_conserved_flush :
    let start : Shared ["a".toList] :=
      Shared.start (.fresh _ none [] ∅) ⟨fun _ => none, 0⟩ fun _ => none
    let actions := [.add 0 0 .api (.addBytesOut 7), .call (.flush "2026-01-02".toList)] ++
      List.replicate 60 (.go Reference.env) ++
      .add 1 0 .api (.addBytesOut 5) :: List.replicate 88 (.go Reference.env)
    let shared := (machine Reference.statsCrates).run start actions
    shared.stored (0, .api) .bytesOut +
          (machine Reference.statsCrates).total (evicted (0, .api) .bytesOut) start actions +
        (shared.current (0, .api) .bytesOut - shared.flushed (0, .api) .bytesOut) =
      start.stored (0, .api) .bytesOut +
        (machine Reference.statsCrates).total (added (0, .api) .bytesOut) start actions := by
  intro start actions shared
  exact ((traffic_conserved Reference.statsCrates (by decide) none [] ∅ ⟨fun _ => none, 0⟩
    (fun _ => none) actions).1
      (Option.isNone_iff_eq_none.mp (by decide +kernel)) (0, .api) .bytesOut).2

/-- The month of a report is not all that is stored: it leaves other months out. -/
theorem month_without_other_months :
    let days := (Days.addTo ∅ "2026-01-02".toList "a".toList "api".toList ⟨1, 0, 0⟩).addTo
      "2025-12-31".toList "a".toList "api".toList ⟨2, 0, 0⟩
    let start : Shared ["a".toList] :=
      Shared.start (.fresh _ none [] days) ⟨fun _ => none, 0⟩ fun _ => none
    ∃ served rows, Serves Reference.statsCrates Quiet start (.report "2026-01-02".toList) served ∧
      (machine Reference.statsCrates).outputs served (.go Reference.env) =
        [.reported (start.stats.report "2026-01-02".toList rows)] ∧
      (rows 0 .api).month.requests = 1 ∧ start.stored (0, .api) .requests = 3 := by
  intro days start
  have taken : Serves Reference.statsCrates Quiet start (.report "2026-01-02".toList) _ :=
    .taken rfl
  obtain ⟨served, serves, free⟩ := taken.returns Reference.statsCrates Reference.env trivial rfl
  refine ⟨served, _, serves, (serves.reporting _).finish _ free, ?_, ?_⟩
  · exact (get_month _ _ _ _ .requests).trans (by decide +kernel)
  · decide +kernel

end Shared

end Proxemby.Stats
