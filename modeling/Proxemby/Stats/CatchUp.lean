import Proxemby.Stats.Concurrent

/-!
# What a flush catches

A flush reads the shards of one counter after another while threads go on adding.  What was
in the counters when it began is in the history when it ends, and in the file if it is
written.
-/

namespace Proxemby

namespace Counters

/-- A reading is over once the shards that are left have been added. -/
theorem get_foldl (counters : Counters) (field : Field) (loads : List Load) (reading : Reading) :
    (loads.foldl counters.load reading).totals.get field =
      reading.totals.get field + ((shardsOf field loads).map (counters.column field)).sum := by
  induction loads generalizing reading with
  | nil => simp [shardsOf]
  | cons load loads ih =>
      rw [List.foldl_cons, ih]
      rcases counters.load_cases reading field load loads with ⟨shard, -, left, sum⟩ | ⟨left, sum⟩
      · rw [left, sum, List.map_cons, List.sum_cons, Nat.add_assoc]
      · rw [left, sum]

/-- Counters that have grown give no smaller reading. -/
theorem get_foldl_mono {counters grown : Counters} {field : Field}
    (grows : counters.column field ≤ grown.column field) (loads : List Load)
    (reading : Reading) :
    (loads.foldl counters.load reading).totals.get field ≤
      (loads.foldl grown.load reading).totals.get field := by
  rw [get_foldl, get_foldl]
  refine Nat.add_le_add_left (List.sum_le_sum fun shard _ => grows shard) _

end Counters

namespace Stats.Shared

variable {routes : List Str} (crates : StatsCrates)

/-- What a flush in progress will have taken of a counter if nothing more is added. -/
def attained (pair : Fin routes.length × Kind) (field : Field) (shared : Shared routes)
    (progress : Progress routes) : Nat :=
  if pair ∈ progress.left then
    if progress.left.head? = some pair then
      (progress.loads.foldl (shared.stats.counters pair.1 pair.2).load
        progress.reading).totals.get field
    else shared.current pair field
  else shared.flushed pair field

/-- A flush that will take at least some amounts. -/
def Takes (today : Str) (least : Fin routes.length × Kind → Field → Nat)
    (shared : Shared routes) : Prop :=
  ∃ progress, shared.holder = some progress ∧ progress.call = .flush today ∧
    progress.left.Nodup ∧ ∀ pair field, least pair field ≤ attained pair field shared progress

theorem attained_add (shared : Shared routes) (thread : Nat) (route : Fin routes.length)
    (kind : Kind) (update : Update) (progress : Progress routes)
    (pair : Fin routes.length × Kind) (field : Field) :
    attained pair field shared progress ≤
      attained pair field (shared.add thread route kind update) progress := by
  have grows := shared.column_le_add thread route kind update pair field
  rw [attained, attained]
  split
  · split
    · exact Counters.get_foldl_mono grows progress.loads progress.reading
    · exact Finset.sum_le_sum fun shard _ => grows shard
  · exact le_rfl

/-- A step of the flush leaves what it will take as it is. -/
theorem attained_go {shared : Shared routes} {env : Env} {progress : Progress routes}
    {today : Str} (call : progress.call = .flush today) (nodup : progress.left.Nodup)
    (held : (shared.go crates env progress).1.holder ≠ none) :
    ∃ next, (shared.go crates env progress).1.holder = some next ∧ next.call = .flush today ∧
      next.left.Nodup ∧ ∀ pair field,
      attained pair field (shared.go crates env progress).1 next =
        attained pair field shared progress := by
  cases left : progress.left with
  | nil =>
      rw [go_flushed left call] at held
      exact absurd rfl held
  | cons first rest =>
      rw [left] at nodup
      obtain ⟨fresh, distinct⟩ := List.nodup_cons.mp nodup
      cases reads : progress.loads with
      | cons load more =>
          rw [go_load left reads]
          refine ⟨_, rfl, call, by rw [left]; exact nodup, ?_⟩
          intro pair field
          simp only [attained, left, reads, List.head?_cons, Option.some.injEq, List.foldl_cons]
          by_cases same : first = pair
          · subst same
            rfl
          · simp only [same, if_false]
            rfl
      | nil =>
          rw [go_settle left reads call]
          refine ⟨_, rfl, call, distinct, ?_⟩
          intro pair field
          simp only [attained, left, reads, List.head?_cons, Option.some.injEq, List.foldl_nil,
            Progress.turn, List.mem_cons]
          by_cases here : pair = first
          · subst here
            simp [fresh, flushed, History.flushed_settle]
          · by_cases later : pair ∈ rest
            · by_cases second : rest.head? = some pair
              · simp only [here, Ne.symm here, later, second, or_true, if_true, if_false, call]
                exact Counters.get_totals _ field
              · simp only [here, Ne.symm here, later, second, or_true, if_true, if_false]
                rfl
            · simp only [here, later, or_self, if_false, flushed, History.flushed_settle]

theorem Takes.next {today : Str} {least : Fin routes.length × Kind → Field → Nat}
    {shared : Shared routes} (takes : Takes today least shared) {action : Action routes}
    (held : ((machine crates).next shared action).holder ≠ none) :
    Takes today least ((machine crates).next shared action) := by
  obtain ⟨progress, holds, call, nodup, enough⟩ := takes
  cases action with
  | add thread route kind update =>
      refine ⟨progress, holds, call, nodup, fun pair field => ?_⟩
      exact (enough pair field).trans
        (attained_add shared thread route kind update progress pair field)
  | call other =>
      have same : (machine crates).next shared (.call other) = shared := by
        simp only [Machine.next, machine, step, holds]
      rw [same]
      exact ⟨progress, holds, call, nodup, enough⟩
  | go env =>
      simp only [Machine.next, machine, step, holds] at held ⊢
      obtain ⟨next, holds', call', nodup', same⟩ := attained_go crates call nodup held
      refine ⟨next, holds', call', nodup', fun pair field => ?_⟩
      rw [same pair field]
      exact enough pair field

/-- A call that keeps the lock answers nothing. -/
theorem outputs_go_held {shared : Shared routes} {env : Env}
    (held : ((machine crates).next shared (.go env)).holder ≠ none) :
    (machine crates).outputs shared (.go env) = [] := by
  cases holds : shared.holder with
  | none => simp only [Machine.outputs, machine, step, holds]
  | some progress =>
      simp only [Machine.next, Machine.outputs, machine, step, holds] at held ⊢
      rw [go] at held ⊢
      split at held
      · rfl
      · split <;> rfl
      · split at held <;> exact absurd rfl held

/-- A flush that begins will take all that is in the counters. -/
theorem takes_call {shared : Shared routes} (free : shared.holder = none) (today : Str) :
    Takes today shared.current ((machine crates).next shared (.call (.flush today))) := by
  have taken : (machine crates).next shared (.call (.flush today)) =
      { shared with holder := some (.start (.flush today)) } := by
    simp only [Machine.next, machine, step, free]
  rw [taken]
  refine ⟨_, rfl, rfl, pairs_nodup routes, fun pair field => ?_⟩
  by_cases first : (pairs routes).head? = some pair
  · simp only [attained, Progress.start, mem_pairs, first, if_true]
    exact (Counters.get_totals (shared.stats.counters pair.1 pair.2) field).ge
  · simp only [attained, Progress.start, mem_pairs, first, if_true, if_false]
    exact le_rfl

/-- The end of a flush: what it was to take is in the history, and in the file if the flush
succeeds. -/
theorem Takes.finish {today : Str} {least : Fin routes.length × Kind → Field → Nat}
    {shared : Shared routes} (takes : Takes today least shared) {env : Env}
    (free : ((machine crates).next shared (.go env)).holder = none) :
    let after := (machine crates).next shared (.go env)
    (∀ pair field, least pair field ≤ after.flushed pair field) ∧
      ∃ result, (machine crates).outputs shared (.go env) = [.flushed result] ∧
        (result = .ok () → ∀ name, shared.stats.path = some name →
          ∃ data, crates.toVec after.stats.history.days = .ok data ∧
            after.disk name = some data) := by
  obtain ⟨progress, holds, call, nodup, enough⟩ := takes
  have goes : (machine crates).step shared (.go env) = shared.go crates env progress := by
    simp only [machine, step, holds]
  simp only [Machine.next, Machine.outputs, goes] at free ⊢
  cases left : progress.left with
  | nil =>
      rw [go_flushed left call]
      refine ⟨fun pair field => ?_, _, rfl, ?_⟩
      · have taken := enough pair field
        rwa [attained, left, if_neg List.not_mem_nil] at taken
      · intro done name path
        rw [path] at done ⊢
        dsimp only
        rw [History.finish] at done ⊢
        cases text : crates.toVec shared.stats.history.days.evict with
        | error e =>
            simp only [text] at done
            cases done
        | ok data =>
            refine ⟨data, rfl, ?_⟩
            cases failure : env.writeError with
            | some e =>
                simp only [text, writePrivateFile, failure] at done
                cases done
            | none => simp [writePrivateFile, failure]
  | cons first rest =>
      cases reads : progress.loads with
      | cons load more =>
          rw [go_load left reads] at free
          cases free
      | nil =>
          rw [go_settle left reads call] at free
          cases free

/-- What the history gains in a run, or evicts, is what flushes take out of the counters. -/
theorem settled_run (distinct : routes.Nodup) {shared : Shared routes} (sound : shared.Sound)
    (actions : List (Action routes)) (pair : Fin routes.length × Kind) (field : Field) :
    let last := (machine crates).run shared actions
    last.stored pair field + (machine crates).total (evicted pair field) shared actions +
        shared.flushed pair field =
      shared.stored pair field + last.flushed pair field := by
  intro last
  have balance := stock_run crates distinct sound actions pair field
  have grown := current_run crates shared actions pair field
  have below := flushed_le_current sound pair field
  have below' := flushed_le_current (sound_run crates sound actions) pair field
  simp only [stock] at balance
  simp only [last]
  omega

theorem path_next (shared : Shared routes) (action : Action routes) :
    ((machine crates).next shared action).stats.path = shared.stats.path := by
  have idle (env : Env) (progress : Progress routes) :
      (shared.go crates env progress).1.stats.path = shared.stats.path := by
    rw [go]
    split
    · rfl
    · split <;> rfl
    · split <;> rfl
  cases action with
  | add thread route kind update => rfl
  | call call => cases held : shared.holder <;> simp [Machine.next, machine, step, held]
  | go env => cases held : shared.holder <;> simp [Machine.next, machine, step, held, idle]

end Stats.Shared

end Proxemby
