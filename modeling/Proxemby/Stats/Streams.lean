import Mathlib.Algebra.Order.Group.Unbundled.Int
import Proxemby.Stats.Concurrent

/-!
# Active streams

The number of responses that are being streamed.  A stream may start and end on different
threads, so shards can go negative and only their sum means something; a report that sums
them while streams come and go can be off, but not by more than the streams that do.
-/

namespace Proxemby

namespace Counters

/-- The number of active streams over all shards. -/
def streams (counters : Counters) : Int := ∑ shard, (counters shard).active

/-- The shards whose streams some loads read. -/
def streamsOf (loads : List Load) : List (Fin shardCount) :=
  loads.filterMap fun
    | .active shard => some shard
    | .total _ _ => none

theorem mem_streamsOf {loads : List Load} {shard : Fin shardCount} :
    shard ∈ streamsOf loads ↔ .active shard ∈ loads := by
  rw [streamsOf, List.mem_filterMap]
  constructor
  · rintro ⟨load, member, same⟩
    cases load with
    | active other =>
        obtain rfl := Option.some.inj same
        exact member
    | total other field => cases same
  · intro member
    exact ⟨_, member, rfl⟩

theorem streamsOf_nodup {loads : List Load} (nodup : loads.Nodup) : (streamsOf loads).Nodup := by
  induction loads with
  | nil => exact .nil
  | cons load loads ih =>
      obtain ⟨fresh, rest⟩ := List.nodup_cons.mp nodup
      cases load with
      | active shard => exact List.nodup_cons.mpr ⟨mt mem_streamsOf.mp fresh, ih rest⟩
      | total shard field => exact ih rest

/-- What a reading adds up to if nothing comes in between. -/
theorem active_foldl (counters : Counters) (loads : List Load) (reading : Reading) :
    (loads.foldl counters.load reading).active =
      reading.active + ((streamsOf loads).map fun shard => (counters shard).active).sum := by
  induction loads generalizing reading with
  | nil => simp [streamsOf]
  | cons load loads ih =>
      rw [List.foldl_cons, ih]
      cases load with
      | active shard =>
          change reading.active + (counters shard).active + _ = reading.active + (_ + _)
          rw [add_assoc]
          rfl
      | total shard field => cases field <;> rfl

/-- A whole reading counts every shard once. -/
theorem active_read (counters : Counters) : counters.read.active = counters.streams := by
  rw [read, active_foldl, zero_add, streams]
  have all : (streamsOf loads).toFinset = Finset.univ :=
    Finset.eq_univ_iff_forall.mpr fun shard =>
      List.mem_toFinset.mpr (mem_streamsOf.mpr (mem_loads _))
  rw [← all, List.sum_toFinset _ (streamsOf_nodup loads_nodup)]

/-- An update of one shard changes the sum over some shards by its flow, or not at all. -/
theorem sum_update_or (counters : Counters) {shards : List (Fin shardCount)}
    (nodup : shards.Nodup) (shard : Fin shardCount) (update : Update) :
    let after := Function.update counters shard ((counters shard).update update)
    (shards.map fun shard => (after shard).active).sum =
      (shards.map fun shard => (counters shard).active).sum +
        if shard ∈ shards then update.flow else 0 := by
  intro after
  induction shards with
  | nil => simp
  | cons first shards ih =>
      obtain ⟨fresh, rest⟩ := List.nodup_cons.mp nodup
      rw [List.map_cons, List.sum_cons, ih rest, List.map_cons, List.sum_cons]
      by_cases same : shard = first
      · subst same
        simp only [after, Function.update_self, Shard.active_update, fresh, if_false,
          List.mem_cons_self, if_true]
        omega
      · have kept : (after first).active = (counters first).active := by
          simp only [after, Function.update_of_ne (Ne.symm same)]
        simp only [kept, List.mem_cons, same, false_or]
        omega

theorem streams_update (counters : Counters) (shard : Fin shardCount) (update : Update) :
    streams (Function.update counters shard ((counters shard).update update)) =
      counters.streams + update.flow := by
  have sum := counters.sum_update_or (List.nodup_finRange shardCount) shard update
  have all (counters : Counters) : counters.streams =
      ((List.finRange shardCount).map fun shard => (counters shard).active).sum := by
    rw [← List.sum_toFinset _ (List.nodup_finRange _), List.toFinset_finRange, streams]
  rw [all, all, sum, if_pos (List.mem_finRange shard)]

end Counters

namespace Stats.Shared

variable {routes : List Str}

/-- The number of active streams of a route and kind. -/
def streams (shared : Shared routes) (pair : Fin routes.length × Kind) : Int :=
  (shared.stats.counters pair.1 pair.2).streams

/-- What an action does to the number of active streams. -/
def flowed (pair : Fin routes.length × Kind) : Action routes → Int
  | .add _ route kind update => if (route, kind) = pair then update.flow else 0
  | _ => 0

/-- The streams of a route and kind that start or end with an action. -/
def churn (pair : Fin routes.length × Kind) (_ : Shared routes) (action : Action routes) : Nat :=
  (flowed pair action).natAbs

/-- An addition updates one shard of one counter. -/
theorem counters_add (shared : Shared routes) (thread : Nat) (route : Fin routes.length)
    (kind : Kind) (update : Update) (pair : Fin routes.length × Kind) :
    (shared.add thread route kind update).stats.counters pair.1 pair.2 =
      if (route, kind) = pair then
        Function.update (shared.stats.counters route kind) (shared.threads.shardIndex thread).1
          ((shared.stats.counters route kind (shared.threads.shardIndex thread).1).update update)
      else shared.stats.counters pair.1 pair.2 := by
  obtain ⟨route', kind'⟩ := pair
  by_cases sameRoute : route' = route
  · subst sameRoute
    by_cases sameKind : kind' = kind
    · subst sameKind
      simp [add]
    · simp [add, Function.update_of_ne sameKind, Ne.symm sameKind]
  · simp [add, Function.update_of_ne sameRoute, Ne.symm sameRoute]

theorem streams_add (shared : Shared routes) (thread : Nat) (route : Fin routes.length)
    (kind : Kind) (update : Update) (pair : Fin routes.length × Kind) :
    (shared.add thread route kind update).streams pair =
      shared.streams pair + if (route, kind) = pair then update.flow else 0 := by
  rw [streams, counters_add]
  split
  · next same =>
      subst same
      exact Counters.streams_update _ _ _
  · simp [streams]

variable (crates : StatsCrates)

/-- The holder of the lock does not touch the counters. -/
theorem counters_go (shared : Shared routes) (env : Env) (progress : Progress routes) :
    (shared.go crates env progress).1.stats.counters = shared.stats.counters := by
  rw [go]
  split
  · rfl
  · split <;> rfl
  · split <;> rfl

theorem counters_next {shared : Shared routes} {action : Action routes} (quiet : Quiet action) :
    ((machine crates).next shared action).stats.counters = shared.stats.counters := by
  cases action with
  | add thread route kind update => exact quiet.elim
  | call call => cases held : shared.holder <;> simp [Machine.next, machine, step, held]
  | go env =>
      cases held : shared.holder with
      | none => simp [Machine.next, machine, step, held]
      | some progress => simp [Machine.next, machine, step, held, counters_go]

/-! ## Reports while streams come and go -/

/-- What a report will show of a route and kind if nothing comes in between from now on: it
is in a row already, or it is being read, or it will be. -/
def foreseen (pair : Fin routes.length × Kind) (shared : Shared routes)
    (progress : Progress routes) : Int :=
  if pair ∈ progress.left then
    max (if progress.left.head? = some pair then
        (progress.loads.foldl (shared.stats.counters pair.1 pair.2).load progress.reading).active
      else shared.streams pair) 0
  else (progress.rows pair.1 pair.2).active

/-- A report that holds the lock, and what it will show of the streams: it is as far from
some numbers as streams have come and gone. -/
structure Counts (today : Str) (number : Fin routes.length × Kind → Int)
    (slack : Fin routes.length × Kind → Nat) (shared : Shared routes) : Prop where
  progress : ∃ progress, shared.holder = some progress ∧ progress.call = .report today ∧
    progress.left.Nodup ∧ progress.loads.Nodup ∧
    ∀ pair, (foreseen pair shared progress - number pair).natAbs ≤ slack pair

/-- An addition changes what a report will show by the stream that starts or ends. -/
theorem foreseen_add (shared : Shared routes) (thread : Nat) (route : Fin routes.length)
    (kind : Kind) (update : Update) {progress : Progress routes} (nodup : progress.loads.Nodup)
    (pair : Fin routes.length × Kind) :
    (foreseen pair (shared.add thread route kind update) progress -
        foreseen pair shared progress).natAbs ≤
      churn pair shared (.add thread route kind update) := by
  rw [foreseen, foreseen, streams_add, counters_add, churn, flowed]
  split
  · split
    · rw [Counters.active_foldl, Counters.active_foldl]
      by_cases same : (route, kind) = pair
      · subst same
        dsimp only
        rw [if_pos rfl, if_pos rfl, Counters.sum_update_or _ (Counters.streamsOf_nodup nodup)]
        split <;> omega
      · rw [if_neg same, if_neg same]
        omega
    · omega
  · omega

/-- What the holder of the lock does on its own changes nothing of what it will show. -/
theorem foreseen_go {shared : Shared routes} {env : Env} {progress : Progress routes}
    {today : Str} (call : progress.call = .report today) (pairs : progress.left.Nodup)
    (loads : progress.loads.Nodup)
    (held : (shared.go crates env progress).1.holder ≠ none) :
    ∃ next, (shared.go crates env progress).1.holder = some next ∧ next.call = .report today ∧
      next.left.Nodup ∧ next.loads.Nodup ∧ ∀ pair,
      foreseen pair (shared.go crates env progress).1 next = foreseen pair shared progress := by
  cases left : progress.left with
  | nil =>
      rw [go_reported left call] at held
      exact absurd rfl held
  | cons first rest =>
      rw [left] at pairs
      obtain ⟨fresh, nodup⟩ := List.nodup_cons.mp pairs
      cases reads : progress.loads with
      | cons load more =>
          rw [reads] at loads
          rw [go_load left reads]
          refine ⟨_, rfl, call, by rw [left]; exact pairs, (List.nodup_cons.mp loads).2, ?_⟩
          intro pair
          simp only [foreseen, left, reads, List.head?_cons, Option.some.injEq, List.foldl_cons]
          by_cases same : first = pair
          · subst same
            rfl
          · simp only [same, if_false]
            rfl
      | nil =>
          rw [go_row left reads call]
          refine ⟨_, rfl, call, nodup, Call.loads_nodup _, ?_⟩
          intro pair
          simp only [foreseen, left, reads, List.head?_cons, Option.some.injEq, List.foldl_nil,
            Progress.turn, List.mem_cons]
          by_cases here : pair = first
          · subst here
            simp [fresh, History.kindReport]
          · have kept : (Function.update progress.rows first.1
                (Function.update (progress.rows first.1) first.2
                  (shared.stats.history.kindReport today first progress.reading))) pair.1 pair.2 =
                progress.rows pair.1 pair.2 := by
              by_cases sameRoute : pair.1 = first.1
              · have differ : pair.2 ≠ first.2 := fun kind => here (Prod.ext sameRoute kind)
                rw [sameRoute, Function.update_self, Function.update_of_ne differ]
              · rw [Function.update_of_ne sameRoute]
            rw [kept, call]
            by_cases later : pair ∈ rest
            · by_cases second : rest.head? = some pair
              · simp only [here, Ne.symm here, later, second, or_true, if_true, if_false]
                congr 1
                exact (shared.stats.counters pair.1 pair.2).active_read
              · simp only [here, Ne.symm here, later, second, or_true, if_true, if_false]
                rfl
            · simp only [here, later, or_self, if_false]

theorem Counts.next {today : Str} {number : Fin routes.length × Kind → Int}
    {slack : Fin routes.length × Kind → Nat} {shared : Shared routes}
    (counts : Counts today number slack shared) {action : Action routes}
    (held : ((machine crates).next shared action).holder ≠ none) :
    Counts today number (fun pair => slack pair + churn pair shared action)
      ((machine crates).next shared action) := by
  obtain ⟨progress, holds, call, pairs, loads, near⟩ := counts.progress
  cases action with
  | add thread route kind update =>
      refine ⟨progress, holds, call, pairs, loads, fun pair => ?_⟩
      have moved : (foreseen pair ((machine crates).next shared (.add thread route kind update))
            progress - foreseen pair shared progress).natAbs ≤ _ :=
        foreseen_add shared thread route kind update loads pair
      have before := near pair
      omega
  | call other =>
      have same : (machine crates).next shared (.call other) = shared := by
        simp only [Machine.next, machine, step, holds]
      rw [same]
      exact ⟨progress, holds, call, pairs, loads, fun pair => (near pair).trans (by omega)⟩
  | go env =>
      simp only [Machine.next, machine, step, holds] at held ⊢
      obtain ⟨next, holds', call', pairs', loads', same⟩ :=
        foreseen_go crates call pairs loads held
      refine ⟨next, holds', call', pairs', loads', fun pair => ?_⟩
      rw [same pair]
      exact (near pair).trans (Nat.le_add_right _ _)

theorem Counts.run {today : Str} {number : Fin routes.length × Kind → Int}
    {slack : Fin routes.length × Kind → Nat} {shared : Shared routes}
    (counts : Counts today number slack shared) {actions : List (Action routes)}
    (held : (machine crates).Throughout (·.holder ≠ none) shared actions) :
    Counts today number
      (fun pair => slack pair + (machine crates).total (churn pair) shared actions)
      ((machine crates).run shared actions) := by
  induction actions generalizing shared slack with
  | nil => exact counts
  | cons action actions ih =>
      have later := ((machine crates).throughout_cons.mp held).2
      have counted := ih (counts.next crates later.first) later
      simp only [Nat.add_assoc] at counted
      exact counted

/-- A report that is taken while streams start and end shows a number of active streams that
is off the number at its start by no more than the streams that start or end meanwhile. -/
theorem report_streams {before : Shared routes} (free : before.holder = none) (today : Str)
    (actions : List (Action routes)) (env : Env) :
    let taken := (machine crates).next before (.call (.report today))
    let shared := (machine crates).run taken actions
    (machine crates).Throughout (·.holder ≠ none) taken actions →
    ((machine crates).next shared (.go env)).holder = none →
    ∃ rows, (machine crates).outputs shared (.go env) =
        [.reported (shared.stats.report today rows)] ∧
      ∀ pair, ((rows pair.1 pair.2).active - max (before.streams pair) 0 : Int).natAbs ≤
        (machine crates).total (churn pair) taken actions := by
  intro taken shared held released
  have holds : taken.holder = some (.start (.report today)) := by
    simp only [taken, Machine.next, machine, step, free]
  have same : taken.stats = before.stats := by
    simp only [taken, Machine.next, machine, step, free]
  have starts : Counts today (fun pair => max (before.streams pair) 0) (fun _ => 0) taken := by
    refine ⟨_, holds, rfl, pairs_nodup routes, Call.loads_nodup (.report today), ?_⟩
    intro pair
    simp only [foreseen, Progress.start, mem_pairs, if_true, streams, same]
    split
    · rw [show (Call.report today).loads.foldl (before.stats.counters pair.1 pair.2).load
        ⟨.zero, 0⟩ = (before.stats.counters pair.1 pair.2).read from rfl, Counters.active_read]
      simp
    · simp
  obtain ⟨progress, holds, call, -, -, near⟩ := (starts.run crates held).progress
  simp only [Nat.zero_add] at near
  refine ⟨progress.rows, ?_⟩
  have goes : (machine crates).step shared (.go env) = shared.go crates env progress := by
    have holds : shared.holder = some progress := holds
    simp only [machine, step, holds]
  have free' : (shared.go crates env progress).1.holder = none := by
    rw [← goes]
    exact released
  cases left : progress.left with
  | nil =>
      refine ⟨?_, fun pair => ?_⟩
      · rw [Machine.outputs, goes, go_reported left call]
      · have shown := near pair
        rwa [foreseen, left, if_neg List.not_mem_nil] at shown
  | cons pair rest =>
      cases reads : progress.loads with
      | cons load more =>
          rw [go_load left reads] at free'
          cases free'
      | nil =>
          rw [go_row left reads call] at free'
          cases free'

/-- A stream ends on another thread while a report reads: one shard is at `-1`, and the report
still shows a stream. -/
theorem report_streams_ending :
    let statsCrates := Reference.statsCrates
    let before := (machine statsCrates).run
      (Shared.start (.fresh ["a".toList] none [] ∅) ⟨fun _ => none, 0⟩ fun _ => none)
      [.add 0 0 .api .streamStarted]
    let actions := List.replicate 60 (.go Reference.env) ++
      .add 1 0 .api .streamFinished :: List.replicate 135 (.go Reference.env)
    let taken := (machine statsCrates).next before (.call (.report "2026-01-02".toList))
    let shared := (machine statsCrates).run taken actions
    ∃ rows, (machine statsCrates).outputs shared (.go Reference.env) =
        [.reported (shared.stats.report "2026-01-02".toList rows)] ∧
      ∀ pair, ((rows pair.1 pair.2).active - max (before.streams pair) 0 : Int).natAbs ≤
        (machine statsCrates).total (churn pair) taken actions := by
  intro statsCrates before actions taken shared
  exact report_streams statsCrates rfl "2026-01-02".toList actions Reference.env
    (by decide +kernel) (Option.isNone_iff_eq_none.mp (by decide +kernel))

end Stats.Shared

end Proxemby
