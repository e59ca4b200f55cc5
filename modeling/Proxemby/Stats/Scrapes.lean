import Proxemby.Stats.Agreement
import Proxemby.Stats.Metrics
import Proxemby.Stats.Streams

/-!
# Scrapes among threads

A scrape is one run of `prometheus`.  Any number of them go on at a time, one atomic load after
another, in between the updates, flushes and reports of other threads.  All additions are those
of `u64`.
-/

namespace Proxemby.Stats

open Text

section Routes

variable {routes : List Str}

/-- The counters of all routes and kinds. -/
abbrev Table (routes : List Str) := Fin routes.length → Kind → Counters

/-- A scrape in progress: the entries that are left, the loads that are left of the first of
them, what it has read for it, and the output so far. -/
structure Scrape (routes : List Str) where
  left : List (Entry routes)
  loads : List Load
  reading : Reading
  out : Str

def Entry.loads : Entry routes → List Load
  | .fixed _ => []
  | .sample key => (metrics.get key.1).loads

namespace Scrape

/-- Turn to the next entry. -/
def turn (left : List (Entry routes)) (out : Str) : Scrape routes where
  left
  loads := (left.head?.map Entry.loads).getD []
  reading := ⟨.zero, 0⟩
  out

def start : Scrape routes := turn (entries routes) []

/-- One load, or one line of the output. -/
def go (table : Table routes) (scrape : Scrape routes) : Scrape routes :=
  match scrape.left with
  | [] => scrape
  | .fixed text :: left => turn left (scrape.out ++ (text ++ ['\n']))
  | .sample key :: left =>
      match scrape.loads with
      | load :: loads =>
          { scrape with loads, reading := (table key.2.1 key.2.2).loadU64 scrape.reading load }
      | [] =>
          let value := (metrics.get key.1).value scrape.reading
          turn left (scrape.out ++ ((Entry.sample key).text (fun _ => value) ++ ['\n']))

/-- The steps up to the end of a scrape. -/
def cost (scrape : Scrape routes) : Nat :=
  scrape.loads.length + scrape.left.length + ((scrape.left.drop 1).map (·.loads.length)).sum

theorem cost_turn (left : List (Entry routes)) (out : Str) :
    (turn left out).cost = left.length + (left.map (·.loads.length)).sum := by
  cases left with
  | nil => rfl
  | cons entry left =>
      simp only [turn, cost, List.head?_cons, Option.map_some, Option.getD_some, List.length_cons,
        List.drop_one, List.tail_cons, List.map_cons, List.sum_cons]
      omega

theorem cost_go (table : Table routes) {scrape : Scrape routes} (more : scrape.left ≠ []) :
    (scrape.go table).cost < scrape.cost := by
  rw [go]
  split
  · next finished => exact absurd finished more
  · next text left first =>
      rw [cost_turn]
      simp only [cost, first, List.length_cons, List.drop_one, List.tail_cons]
      omega
  · next key left first =>
      split
      · next load loads reads =>
          simp only [cost, reads, List.length_cons]
          omega
      · next none =>
          rw [cost_turn]
          simp only [cost, first, List.length_cons, List.drop_one, List.tail_cons]
          omega

end Scrape

/-- What the threads share, and the scrapes in progress. -/
structure Watched (routes : List Str) where
  shared : Shared routes
  scrapes : Slots (Scrape routes)

inductive Watch (routes : List Str) where
  | act (action : Action routes)
  | scrape
  | go (id : Nat)

inductive Seen where
  | answered (answer : Answer)
  | scraped (id : Nat) (text : Str)

namespace Watched

variable (crates : StatsCrates)

def step (watched : Watched routes) : Watch routes → Watched routes × List Seen
  | .act action =>
      let (shared, answers) := watched.shared.stepU64 crates action
      ({ watched with shared }, answers.map .answered)
  | .scrape => ({ watched with scrapes := watched.scrapes.push .start }, [])
  | .go id =>
      match watched.scrapes.get id with
      | none => (watched, [])
      | some scrape =>
          if scrape.left = [] then
            ({ watched with scrapes := watched.scrapes.remove id }, [.scraped id scrape.out])
          else
            let go := Scrape.go watched.shared.stats.counters
            ({ watched with scrapes := watched.scrapes.modify id fun scrape => some (go scrape) },
              [])

def machine : Machine (Watched routes) (Watch routes) Seen where
  step := step crates

end Watched

/-! ## A scrape follows the counters -/

/-- The metric is a counter of a field. -/
def Counts (index : Fin metrics.length) (field : Field) : Prop :=
  (metrics.get index).loads = Counters.totalsLoads ∧
    ∀ reading, (metrics.get index).value reading = reading.totals.get field

theorem exists_counts {index : Fin metrics.length}
    (counter : (metrics.get index).metricType = "counter".toList) :
    ∃ field, Counts index field := by
  have each : ∀ metric ∈ metrics, metric.metricType = "counter".toList →
      ∃ field, metric.loads = Counters.totalsLoads ∧
        ∀ reading, metric.value reading = reading.totals.get field := by
    intro metric member type
    simp only [metrics, List.mem_cons, List.not_mem_nil, or_false] at member
    rcases member with rfl | rfl | rfl | rfl
    · exact ⟨.requests, rfl, fun _ => rfl⟩
    · exact ⟨.bytesOut, rfl, fun _ => rfl⟩
    · exact ⟨.bytesIn, rfl, fun _ => rfl⟩
    · exact absurd type (by decide)
  exact each _ (List.get_mem _ _) counter

theorem Counts.read {index : Fin metrics.length} {field : Field} (counts : Counts index field)
    (counters : Counters) :
    (metrics.get index).read counters = ∑ shard, counters.column field shard := by
  rw [Metric.read, counts.1, counts.2]
  exact counters.get_totals field

theorem nodup_loads : ∀ metric ∈ metrics, metric.loads.Nodup := by
  intro metric member
  simp only [metrics, List.mem_cons, List.not_mem_nil, or_false] at member
  rcases member with rfl | rfl | rfl | rfl
  · exact Counters.totalsLoads_nodup
  · exact Counters.totalsLoads_nodup
  · exact Counters.totalsLoads_nodup
  · exact Counters.loads_nodup.of_append_right

theorem Entry.text_congr {values values' : Key routes → Nat} {entry : Entry routes}
    (same : ∀ key, entry.key? = some key → values key = values' key) :
    entry.text values = entry.text values' := by
  cases entry with
  | fixed text => rfl
  | sample key => rw [text, text, same key rfl]

/-- A scrape that has found at least some amounts, and nothing that has not been there. -/
structure Follows (least : Key routes → Nat) (table : Table routes) (scrape : Scrape routes) :
    Prop where
  covers : ∀ key field, Counts key.1 field →
    Sweep.Covers ((table key.2.1 key.2.2).column field) (least key)
  nodup : scrape.loads.Nodup
  reads : ∀ key left field, scrape.left = .sample key :: left → Counts key.1 field →
    Sweep.Reads ((table key.2.1 key.2.2).column field) (least key)
      (scrape.reading.totals.get field) (Counters.shardsOf field scrape.loads)
  written : ∃ values done, entries routes = done ++ scrape.left ∧
    scrape.out = terminated '\n' (done.map (Entry.text values)) ∧
    ∀ key field, Counts key.1 field → .sample key ∈ done →
      least key ≤ values key ∧ Sweep.Covers ((table key.2.1 key.2.2).column field) (values key)

namespace Follows

variable {least : Key routes → Nat} {table table' : Table routes} {scrape : Scrape routes}

/-- Threads add to the counters. -/
theorem grow (grows : ∀ route kind field,
      (table route kind).column field ≤ (table' route kind).column field)
    (follows : Follows least table scrape) : Follows least table' scrape where
  covers key field counts := (follows.covers key field counts).grow (grows _ _ _)
  nodup := follows.nodup
  reads key left field first counts :=
    (follows.reads key left field first counts).grow (grows _ _ _)
  written := by
    obtain ⟨values, done, split, out, bounds⟩ := follows.written
    refine ⟨values, done, split, out, fun key field counts member => ?_⟩
    obtain ⟨enough, covers⟩ := bounds key field counts member
    exact ⟨enough, covers.grow (grows _ _ _)⟩

/-- A scrape begins with an entry. -/
theorem turn (covers : ∀ key field, Counts key.1 field →
      Sweep.Covers ((table key.2.1 key.2.2).column field) (least key))
    {left : List (Entry routes)} {out : Str}
    (written : ∃ values done, entries routes = done ++ left ∧
      out = terminated '\n' (done.map (Entry.text values)) ∧
      ∀ key field, Counts key.1 field → .sample key ∈ done →
        least key ≤ values key ∧
          Sweep.Covers ((table key.2.1 key.2.2).column field) (values key)) :
    Follows least table (Scrape.turn left out) where
  covers := covers
  nodup := by
    rcases left with _ | ⟨text | key, left⟩
    · exact List.nodup_nil
    · exact List.nodup_nil
    · exact nodup_loads _ (List.get_mem _ _)
  reads := by
    rintro key rest field rfl counts
    have all (shard : Fin shardCount) :
        shard ∈ Counters.shardsOf field (metrics.get key.1).loads := by
      rw [counts.1]
      exact Counters.mem_shardsOf.mpr (Counters.mem_totalsLoads shard field)
    rw [Scrape.turn, Totals.get_zero]
    exact (covers key field counts).start all
  written := written

theorem start (table : Table routes) :
    Follows (fun key => (metrics.get key.1).read (table key.2.1 key.2.2)) table .start := by
  refine .turn ?_ ?_
  · intro key field counts
    exact ⟨_, le_rfl, counts.read _⟩
  · exact ⟨fun _ => 0, [], rfl, rfl, fun _ _ _ member => absurd member List.not_mem_nil⟩

/-- A scrape goes on, as long as the counters are below `2 ^ 64`. -/
theorem go (small : ∀ route kind field, ∑ shard, (table route kind).column field shard < 2 ^ 64)
    (follows : Follows least table scrape) : Follows least table (scrape.go table) := by
  rw [Scrape.go]
  split
  · exact follows
  · next text left first =>
      refine .turn follows.covers ?_
      obtain ⟨values, done, split, out, bounds⟩ := follows.written
      refine ⟨values, done ++ [.fixed text], by simp [split, first], ?_, ?_⟩
      · simp [out, terminated, Entry.text]
      · intro key field counts member
        exact bounds key field counts (by simpa using member)
  · next key left first =>
      split
      · next load loads more =>
          have nodup := follows.nodup
          rw [more] at nodup
          refine ⟨follows.covers, (List.nodup_cons.mp nodup).2, ?_, follows.written⟩
          intro key' left' field first' counts
          obtain ⟨same, -⟩ := List.cons.inj (first.symm.trans first')
          obtain rfl := Entry.sample.inj same
          have reads := follows.reads key left field first counts
          rw [more] at reads
          have next := Counters.reads_load nodup reads
          dsimp only
          rw [Counters.get_loadU64 (next.le.trans_lt (small _ _ _))]
          exact next
      · next none =>
          refine .turn follows.covers ?_
          obtain ⟨values, done, split, out, bounds⟩ := follows.written
          have fresh : key ∉ done.filterMap Entry.key? := by
            have nodup := @keys_nodup routes
            have here : (Entry.sample key).key? = some key := rfl
            rw [← filterMap_entries, split, first, List.filterMap_append,
              List.filterMap_cons_some here] at nodup
            intro member
            exact (List.disjoint_of_nodup_append nodup) member List.mem_cons_self
          refine ⟨Function.update values key ((metrics.get key.1).value scrape.reading),
            done ++ [.sample key], by simp [split, first], ?_, ?_⟩
          · have before : done.map (Entry.text values) = done.map (Entry.text
                (Function.update values key ((metrics.get key.1).value scrape.reading))) := by
              refine List.map_congr_left fun entry member => Entry.text_congr ?_
              intro other found
              have differ : other ≠ key := by
                rintro rfl
                exact fresh (List.mem_filterMap.mpr ⟨entry, member, found⟩)
              rw [Function.update_of_ne differ]
            rw [out, before]
            simp [terminated, Entry.text]
          · intro other field counts member
            by_cases same : other = key
            · subst same
              have reads := follows.reads other left field first counts
              rw [none] at reads
              rw [Function.update_self, counts.2]
              exact reads.finish
            · rw [Function.update_of_ne same]
              exact bounds other field counts (by simpa [same] using member)

/-- The output of a scrape that is finished. -/
theorem finish (follows : Follows least table scrape) (finished : scrape.left = []) :
    ∃ values, scrape.out = exposition values ∧
      ∀ key, (metrics.get key.1).metricType = "counter".toList →
        least key ≤ values key ∧
          values key ≤ (metrics.get key.1).read (table key.2.1 key.2.2) := by
  obtain ⟨values, done, split, out, bounds⟩ := follows.written
  rw [finished, List.append_nil] at split
  refine ⟨values, by rw [out, exposition, split], fun key counter => ?_⟩
  obtain ⟨field, counts⟩ := exists_counts counter
  have member : .sample key ∈ done := by
    have known : key ∈ (entries routes).filterMap Entry.key? := by
      rw [filterMap_entries]
      exact List.mem_product.mpr ⟨List.mem_finRange _, mem_pairs _ _⟩
    rw [split] at known
    obtain ⟨entry, member, found⟩ := List.mem_filterMap.mp known
    cases entry with
    | fixed text => cases found
    | sample other =>
        obtain rfl := Option.some.inj found
        exact member
  obtain ⟨enough, covers⟩ := bounds key field counts member
  refine ⟨enough, ?_⟩
  rw [counts.read]
  exact covers.le

end Follows

/-! ## Runs -/

/-- The holder of the lock does nothing to the counters. -/
theorem Shared.counters_goU64 (crates : StatsCrates) (shared : Shared routes) (env : Env) :
    (shared.stepU64 crates (.go env)).1.stats.counters = shared.stats.counters := by
  cases held : shared.holder with
  | none => simp only [stepU64, held]
  | some progress =>
      simp only [stepU64, held, goU64]
      split
      · rfl
      · split <;> rfl
      · exact shared.counters_go crates env progress

/-- What an input adds to a counter. -/
def Watch.added (pair : Fin routes.length × Kind) (field : Field) : Watch routes → Nat
  | .act (.add _ route kind update) => if (route, kind) = pair then update.amount field else 0
  | _ => 0

/-- No counter reaches `2 ^ 64` by what some inputs add. -/
def Watched.Within (watched : Watched routes) (inputs : List (Watch routes)) : Prop :=
  ∀ pair field,
    watched.shared.current pair field + (inputs.map (Watch.added pair field)).sum < 2 ^ 64

namespace Watched

/-- The value of a metric. -/
def value (watched : Watched routes) (key : Key routes) : Nat :=
  (metrics.get key.1).read (watched.shared.stats.counters key.2.1 key.2.2)

/-- A scrape that is in progress follows the counters. -/
def Watching (id : Nat) (least : Key routes → Nat) (watched : Watched routes) : Prop :=
  id < watched.scrapes.next ∧ ∀ scrape, watched.scrapes.get id = some scrape →
    Follows least watched.shared.stats.counters scrape

variable (crates : StatsCrates)

/-- What a step does to the counters, as long as none of them overflows. -/
theorem counters_next {watched : Watched routes} {input : Watch routes}
    (small : watched.Within [input]) (pair : Fin routes.length × Kind) (field : Field) :
    ((watched.shared.stats.counters pair.1 pair.2).column field ≤
        (((machine crates).next watched input).shared.stats.counters pair.1 pair.2).column field) ∧
      ((machine crates).next watched input).shared.current pair field =
        watched.shared.current pair field + input.added pair field := by
  have same {shared : Shared routes} (counters : shared.stats.counters =
      watched.shared.stats.counters) :
      (watched.shared.stats.counters pair.1 pair.2).column field ≤
          (shared.stats.counters pair.1 pair.2).column field ∧
        shared.current pair field = watched.shared.current pair field + 0 := by
    rw [Shared.current, Shared.current, counters]
    exact ⟨le_rfl, (Nat.add_zero _).symm⟩
  cases input with
  | act action =>
      cases action with
      | add thread route kind update =>
          have sum (field : Field) :
              watched.shared.current (route, kind) field + update.amount field < 2 ^ 64 := by
            simpa [Watch.added] using small (route, kind) field
          have next : ((machine crates).next watched (.act (.add thread route kind
              update))).shared = watched.shared.add thread route kind update :=
            Shared.addU64_of_lt sum
          rw [next]
          exact ⟨watched.shared.column_le_add thread route kind update pair field,
            watched.shared.current_add thread route kind update pair field⟩
      | call call =>
          exact same (@Shared.counters_next routes crates watched.shared (.call call) trivial)
      | go env => exact same (watched.shared.counters_goU64 crates env)
  | scrape => exact same rfl
  | go id =>
      simp only [Machine.next, machine, step]
      split
      · exact same rfl
      · split <;> exact same rfl

theorem Within.append {watched : Watched routes} {first second : List (Watch routes)}
    (small : watched.Within (first ++ second)) :
    watched.Within first ∧ ((machine crates).run watched first).Within second := by
  induction first generalizing watched with
  | nil =>
      refine ⟨fun pair field => ?_, small⟩
      exact (Nat.add_le_add_left (Nat.zero_le _) _).trans_lt (small pair field)
  | cons input first ih =>
      have here : watched.Within [input] := by
        intro pair field
        have all := small pair field
        simp only [List.cons_append, List.map_cons, List.sum_cons, List.map_nil,
          List.sum_nil] at all ⊢
        omega
      have later := @ih ((machine crates).next watched input) (by
        intro pair field
        have all := small pair field
        rw [(counters_next crates here pair field).2]
        rw [List.cons_append, List.map_cons, List.sum_cons] at all
        omega)
      refine ⟨fun pair field => ?_, later.2⟩
      have all := later.1 pair field
      rw [(counters_next crates here pair field).2] at all
      rw [List.map_cons, List.sum_cons]
      omega

/-- A property that every step keeps, as long as no counter overflows. -/
theorem run_invariant (holds : Watched routes → Prop)
    (step : ∀ watched input, watched.Within [input] → holds watched →
      holds ((machine crates).next watched input))
    {watched : Watched routes} (start : holds watched) {inputs : List (Watch routes)}
    (small : watched.Within inputs) : holds ((machine crates).run watched inputs) := by
  induction inputs generalizing watched with
  | nil => exact start
  | cons input inputs ih =>
      have both := @Within.append _ crates _ [input] inputs small
      exact ih (step watched input both.1 start) both.2

theorem Watching.next {id : Nat} {least : Key routes → Nat} {watched : Watched routes}
    {input : Watch routes} (small : watched.Within [input])
    (watching : Watching id least watched) :
    Watching id least ((machine crates).next watched input) := by
  obtain ⟨used, follows⟩ := watching
  have below (route : Fin routes.length) (kind : Kind) (field : Field) :
      ∑ shard, (watched.shared.stats.counters route kind).column field shard < 2 ^ 64 :=
    (Nat.le_add_right _ _).trans_lt (small (route, kind) field)
  cases input with
  | act action =>
      refine ⟨used, fun scrape found => (follows scrape found).grow fun route kind field => ?_⟩
      exact (counters_next crates small (route, kind) field).1
  | scrape =>
      refine ⟨Nat.lt_succ_of_lt used, fun scrape found => follows scrape ?_⟩
      simpa [Machine.next, machine, step, Nat.ne_of_lt used] using found
  | go other =>
      cases there : watched.scrapes.get other with
      | none => simpa [Machine.next, machine, step, there] using ⟨used, follows⟩
      | some scrape =>
          by_cases finished : scrape.left = []
          · simp only [Machine.next, machine, step, there, finished, if_true]
            refine ⟨used, fun scrape' found => follows scrape' ?_⟩
            rw [Slots.get_remove, Function.update_apply] at found
            split at found
            · cases found
            · exact found
          · simp only [Machine.next, machine, step, there, finished, if_false]
            refine ⟨used, fun scrape' found => ?_⟩
            rw [Slots.get_modify] at found
            split at found
            · next same =>
                subst same
                rw [there, Option.bind_some] at found
                obtain rfl := Option.some.inj found
                exact (follows scrape there).go below
            · exact follows scrape' found

theorem outputs_finished {watched : Watched routes} {id : Nat} {scrape : Scrape routes}
    (there : watched.scrapes.get id = some scrape) (finished : scrape.left = []) :
    (machine crates).outputs watched (.go id) = [.scraped id scrape.out] := by
  simp only [Machine.outputs, machine, step, there, finished, if_true]

/-- A scrape that goes on comes to its end. -/
theorem exists_scraped {watched : Watched routes} {id : Nat} {scrape : Scrape routes}
    (there : watched.scrapes.get id = some scrape) :
    ∃ n text, (machine crates).outputs
      ((machine crates).run watched (List.replicate n (.go id))) (.go id) =
        [.scraped id text] := by
  by_cases finished : scrape.left = []
  · exact ⟨0, _, outputs_finished crates there finished⟩
  · have goes : ((machine crates).next watched (.go id)).scrapes.get id =
        some (scrape.go watched.shared.stats.counters) := by
      simp [Machine.next, machine, step, there, finished]
    have less := scrape.cost_go watched.shared.stats.counters finished
    obtain ⟨n, text, scraped⟩ := exists_scraped goes
    exact ⟨n + 1, text, scraped⟩
termination_by scrape.cost

/-- A scrape says of each counter at least what it was at its start and at most what it was at
its end, whatever threads and other scrapes do meanwhile. -/
theorem scrape_between {watched : Watched routes} {during : List (Watch routes)} {text : Str}
    (small : watched.Within during) :
    let id := watched.scrapes.next
    let ended := (machine crates).run ((machine crates).next watched .scrape) during
    (machine crates).outputs ended (.go id) = [.scraped id text] →
    ∃ values, text = exposition values ∧
      ∀ key, (metrics.get key.1).metricType = "counter".toList →
        watched.value key ≤ values key ∧ values key ≤ ended.value key := by
  intro id ended scraped
  have begun : Watching id watched.value ((machine crates).next watched .scrape) := by
    refine ⟨Nat.lt_succ_self _, fun scrape found => ?_⟩
    have same : Scrape.start = scrape := by
      simpa [Machine.next, machine, step, id] using found
    subst same
    exact .start _
  have follows : Watching id watched.value ended :=
    run_invariant crates (Watching id watched.value)
      (fun _ input small watching => watching.next crates small) begun small
  cases there : ended.scrapes.get id with
  | none => simp [Machine.outputs, machine, step, there] at scraped
  | some scrape =>
      by_cases finished : scrape.left = []
      · have same : scrape.out = text := by
          simpa [Machine.outputs, machine, step, there, finished] using scraped
        subst same
        exact (follows.2 scrape there).finish finished
      · simp [Machine.outputs, machine, step, there, finished] at scraped

/-- Counters never go down. -/
theorem value_le_run {watched : Watched routes} {inputs : List (Watch routes)}
    (small : watched.Within inputs) {key : Key routes}
    (counter : (metrics.get key.1).metricType = "counter".toList) :
    watched.value key ≤ ((machine crates).run watched inputs).value key := by
  obtain ⟨field, counts⟩ := exists_counts counter
  refine run_invariant crates (fun later => watched.value key ≤ later.value key) ?_ le_rfl small
  intro later input small enough
  refine enough.trans ?_
  rw [value, value, counts.read, counts.read]
  exact Finset.sum_le_sum fun shard _ =>
    (counters_next crates small (key.2.1, key.2.2) field).1 shard

/-- Two scrapes, one after the other, of a process whose routes need no escapes: both outputs
can be read, no series is there twice, each counter is between what it was when the scrape began
and when it ended, and no counter is lower in the second than in the first, whatever threads and
other scrapes do before, between and during them, as long as no counter overflows. -/
theorem scrapes_grow (plain : ∀ name ∈ routes, Exposition.IsPlain name)
    (distinct : routes.Nodup) {watched : Watched routes}
    {during between during' : List (Watch routes)}
    (small : watched.Within (during ++ between ++ during')) {text text' : Str} :
    let id := watched.scrapes.next
    let ended := (machine crates).run ((machine crates).next watched .scrape) during
    let later := (machine crates).run ((machine crates).next ended (.go id)) between
    let id' := later.scrapes.next
    let ended' := (machine crates).run ((machine crates).next later .scrape) during'
    (machine crates).outputs ended (.go id) = [.scraped id text] →
    (machine crates).outputs ended' (.go id') = [.scraped id' text'] →
    ∃ values values', Exposition.read text = some (exposed values) ∧
      Exposition.read text' = some (exposed values') ∧
      ((exposed values).filterMap Exposition.Line.series?).Nodup ∧
      ∀ key, (metrics.get key.1).metricType = "counter".toList →
        (watched.value key ≤ values key ∧ values key ≤ ended.value key) ∧
          (later.value key ≤ values' key ∧ values' key ≤ ended'.value key) ∧
          values key ≤ values' key := by
  intro id ended later id' ended' scraped scraped'
  -- A step of a scrape adds nothing.
  have whole : watched.Within
      (.scrape :: during ++ (.go id :: between ++ .scrape :: during')) := by
    intro pair field
    have sum := small pair field
    simp only [List.map_append, List.map_cons, List.sum_append, List.sum_cons, Watch.added] at sum ⊢
    omega
  obtain ⟨first, rest⟩ := Within.append crates whole
  obtain ⟨middle, last⟩ := Within.append crates rest
  have drop {watched : Watched routes} {inputs : List (Watch routes)}
      (small : watched.Within (.scrape :: inputs)) : watched.Within inputs := by
    intro pair field
    simpa [Watch.added] using small pair field
  obtain ⟨values, rfl, bounds⟩ := scrape_between crates (drop first) scraped
  obtain ⟨values', rfl, bounds'⟩ := scrape_between crates (drop last) scraped'
  refine ⟨values, values', read_exposition plain values, read_exposition plain values',
    series_exposed_nodup distinct values, fun key counter => ?_⟩
  have grown : ended.value key ≤ later.value key := value_le_run crates middle counter
  exact ⟨bounds key counter, bounds' key counter,
    ((bounds key counter).2.trans grown).trans (bounds' key counter).1⟩

/-- A download goes on while a scrape runs, and before the next. -/
theorem scrapes_grow_download :
    let downloaded (bytes : Nat) : Watch ["a".toList] := .act (.add 0 0 .media (.addBytesOut bytes))
    let machine := machine Reference.statsCrates
    let watched : Watched ["a".toList] :=
      ⟨.start (.fresh _ none [] ∅) ⟨fun _ => none, 0⟩ fun _ => none, .empty⟩
    ∃ n n' text text' values values',
      let ended := machine.run (machine.next watched .scrape)
        ([.go 0, .go 0, downloaded 5] ++ List.replicate n (.go 0))
      let later := machine.run (machine.next ended (.go 0)) [downloaded 7]
      let ended' := machine.run (machine.next later .scrape)
        (List.replicate n' (.go later.scrapes.next))
      machine.outputs ended (.go 0) = [.scraped 0 text] ∧
        machine.outputs ended' (.go later.scrapes.next) = [.scraped later.scrapes.next text'] ∧
        Exposition.read text = some (exposed values) ∧
        Exposition.read text' = some (exposed values') ∧
        ((exposed values).filterMap Exposition.Line.series?).Nodup ∧
        ∀ key, (metrics.get key.1).metricType = "counter".toList →
          (watched.value key ≤ values key ∧ values key ≤ ended.value key) ∧
            (later.value key ≤ values' key ∧ values' key ≤ ended'.value key) ∧
            values key ≤ values' key := by
  intro downloaded machine watched
  let middle := machine.run (machine.next watched .scrape) [.go 0, .go 0, downloaded 5]
  have begun : middle.scrapes.get 0 = some (Scrape.turn ((entries _).drop 2) _) := rfl
  obtain ⟨n, text, scraped⟩ := exists_scraped Reference.statsCrates begun
  have same : (Watched.machine Reference.statsCrates).run middle (List.replicate n (.go 0)) =
      machine.run (machine.next watched .scrape)
        ([.go 0, .go 0, downloaded 5] ++ List.replicate n (.go 0)) :=
    (Machine.run_append _ _ _ _).symm
  rw [same] at scraped
  have begun' (later : Watched ["a".toList]) :
      (machine.next later .scrape).scrapes.get later.scrapes.next = some .start :=
    (Slots.get_push _ _ _).trans (if_pos rfl)
  obtain ⟨n', text', scraped'⟩ := exists_scraped Reference.statsCrates (begun' _)
  have small (id : Nat) : watched.Within
      (([.go 0, .go 0, downloaded 5] ++ List.replicate n (.go 0)) ++ [downloaded 7] ++
        List.replicate n' (.go id)) := by
    intro pair field
    have none : watched.shared.current pair field = 0 := Shared.current_start _ _ _ _ _ pair field
    rw [none]
    cases field
    case bytesOut =>
      simp [Watch.added, downloaded, Update.amount]
      split <;> omega
    all_goals simp [Watch.added, downloaded, Update.amount]
  obtain ⟨values, values', read⟩ := scrapes_grow Reference.statsCrates (by decide) (by decide)
    (small _) scraped scraped'
  exact ⟨n, n', text, text', values, values', scraped, scraped', read⟩

end Watched

end Routes

end Proxemby.Stats
