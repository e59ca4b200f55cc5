import Proxemby.Stats.Concurrent
import Proxemby.Stats.Overflow

/-!
# Shared statistics in `u64`

What threads do to the statistics with the additions of `u64`.  As long as the stored and the
new traffic of each route and kind is below `2 ^ 64` together, every run is that of the
machine on natural numbers.
-/

namespace Proxemby

variable {routes : List Str}

/-! ## Reports -/

theorem foldl_addU64 {stored : Str → Totals} {dates : List Str} {totals : Totals}
    (fits : (dates.foldl (fun totals date => totals.add (stored date)) totals).Fits) :
    dates.foldl (fun totals date => totals.addU64 (stored date)) totals =
      dates.foldl (fun totals date => totals.add (stored date)) totals := by
  induction dates generalizing totals with
  | nil => rfl
  | cons date dates ih =>
      have here : (totals.add (stored date)).Fits := by
        intro field
        have sum := fits field
        rw [List.foldl_cons, get_foldl_add] at sum
        exact (Nat.le_add_right _ _).trans_lt sum
      rw [List.foldl_cons, List.foldl_cons, Totals.addU64_of_fits here]
      exact ih fits

/-- One date has no more than all of them. -/
theorem Days.stored_le_sum (days : Days) (date route kind : Str) (field : Field) :
    (days.stored date route kind).get field ≤ days.sum route kind field := by
  by_cases known : date ∈ days.keys
  · exact Finset.single_le_sum (f := fun date => (days.stored date route kind).get field)
      (fun _ _ => Nat.zero_le _) known
  · rw [stored_of_notMem known, Totals.get_zero]
    exact Nat.zero_le _

namespace History

/-- The report on one route and kind. -/
def kindReportU64 (history : History routes) (today : Str) (pair : Fin routes.length × Kind)
    (reading : Reading) : KindReport :=
  let pending := reading.totals.minus (history.flushed pair.1 pair.2)
  let stored := fun date => history.days.stored date (routes.get pair.1) pair.2.name
  let month := today.take 7
  { today := (stored today).addU64 pending
    month := ((Ordered.keys history.days).filter (month.isPrefixOf ·)).foldl
      (fun totals date => totals.addU64 (stored date)) pending
    sinceStart := reading.totals
    active := (max reading.active 0).toNat }

theorem kindReportU64_of_lt {history : History routes} {today : Str}
    {pair : Fin routes.length × Kind} {reading : Reading}
    (small : ∀ field, history.days.sum (routes.get pair.1) pair.2.name field +
      (reading.totals.get field - (history.flushed pair.1 pair.2).get field) < 2 ^ 64) :
    history.kindReportU64 today pair reading = history.kindReport today pair reading := by
  have day : ((history.days.stored today (routes.get pair.1) pair.2.name).add
      (reading.totals.minus (history.flushed pair.1 pair.2))).Fits := by
    intro field
    rw [Totals.get_add, Totals.get_minus]
    exact (Nat.add_le_add_right (history.days.stored_le_sum _ _ _ field) _).trans_lt (small field)
  have month : (history.kindReport today pair reading).month.Fits := by
    intro field
    rw [get_month, Nat.add_comm]
    refine lt_of_le_of_lt (Nat.add_le_add_right ?_ _) (small field)
    exact Finset.sum_le_sum_of_subset (Finset.filter_subset _ _)
  rw [kindReportU64, kindReport, Totals.addU64_of_fits day, foldl_addU64 month]

end History

namespace Stats.Shared

/-! ## The machine -/

/-- One atomic update of a counter. -/
def addU64 (shared : Shared routes) (thread : Nat) (route : Fin routes.length) (kind : Kind)
    (update : Update) : Shared routes :=
  let (shard, threads) := shared.threads.shardIndex thread
  { shared with threads, stats := shared.stats.addU64 route kind shard update }

variable (crates : StatsCrates)

/-- One step of the holder of the lock. -/
def goU64 (shared : Shared routes) (env : Env) (progress : Progress routes) :
    Shared routes × List Answer :=
  match progress.left, progress.loads with
  | pair :: _, load :: loads =>
      let reading := (shared.stats.counters pair.1 pair.2).loadU64 progress.reading load
      ({ shared with holder := some { progress with loads, reading } }, [])
  | pair :: left, [] =>
      match progress.call with
      | .flush today =>
          let history := shared.stats.history.settleU64 today pair progress.reading.totals
          ({ shared with stats.history := history, holder := some (progress.turn left) }, [])
      | .report today =>
          let row := shared.stats.history.kindReportU64 today pair progress.reading
          let rows := Function.update progress.rows pair.1
            (Function.update (progress.rows pair.1) pair.2 row)
          ({ shared with holder := some { progress.turn left with rows } }, [])
  | [], _ => shared.go crates env progress

def stepU64 (shared : Shared routes) : Action routes → Shared routes × List Answer
  | .add thread route kind update => (shared.addU64 thread route kind update, [])
  | .call call => shared.step crates (.call call)
  | .go env =>
      match shared.holder with
      | some progress => shared.goU64 crates env progress
      | none => (shared, [])

def machineU64 : Machine (Shared routes) (Action routes) Answer where
  step := stepU64 crates

/-! ## It runs like the one on natural numbers -/

theorem addU64_of_lt {shared : Shared routes} {thread : Nat} {route : Fin routes.length}
    {kind : Kind} {update : Update}
    (small : ∀ field, shared.current (route, kind) field + update.amount field < 2 ^ 64) :
    shared.addU64 thread route kind update = shared.add thread route kind update := by
  have sum (field : Field) :
      (shared.stats.counters route kind).totals.get field + update.amount field < 2 ^ 64 := by
    rw [Counters.get_totals]
    exact small field
  simp only [addU64, Stats.addU64_of_lt sum]
  rfl

/-- A load of a sound reading finds no more than the counter has. -/
theorem fits_load {shared : Shared routes} (sound : shared.Sound)
    {progress : Progress routes} (held : shared.holder = some progress)
    {pair : Fin routes.length × Kind} {left : List (Fin routes.length × Kind)}
    (pairs : progress.left = pair :: left) {load : Load} {loads : List Load}
    (more : progress.loads = load :: loads)
    (small : ∀ field, shared.current pair field < 2 ^ 64) :
    ((shared.stats.counters pair.1 pair.2).load progress.reading load).totals.Fits := by
  intro field
  have nodup := sound.loads progress held
  have reads := sound.reads progress pair left held pairs field
  rw [more] at nodup reads
  exact (Counters.reads_load nodup reads).le.trans_lt (small field)

theorem goU64_of_lt {shared : Shared routes} (sound : shared.Sound) (env : Env)
    {progress : Progress routes} (held : shared.holder = some progress)
    (stock : ∀ pair field, stock pair field shared < 2 ^ 64)
    (current : ∀ pair field, shared.current pair field < 2 ^ 64) :
    shared.goU64 crates env progress = shared.go crates env progress := by
  cases pairs : progress.left with
  | nil => simp only [goU64, pairs]
  | cons pair left =>
      cases loads : progress.loads with
      | cons load rest =>
          have fits := fits_load sound held pairs loads (current pair)
          rw [go_load pairs loads]
          simp only [goU64, pairs, loads, Counters.loadU64_of_fits fits]
      | nil =>
          -- The reading adds no more than what has not been flushed.
          have sum (field : Field) :
              shared.stored pair field + (progress.reading.totals.get field -
                shared.flushed pair field) < 2 ^ 64 := by
            have below := (sound.finish held pairs loads field).2
            have whole := stock pair field
            rw [Shared.stock] at whole
            omega
          cases call : progress.call with
          | flush today =>
              have small (field : Field) :
                  (shared.stats.history.days.stored today (routes.get pair.1) pair.2.name).get
                    field + (progress.reading.totals.get field -
                      (shared.stats.history.flushed pair.1 pair.2).get field) < 2 ^ 64 :=
                (Nat.add_le_add_right (Days.stored_le_sum _ _ _ _ field) _).trans_lt (sum field)
              rw [go_settle pairs loads call]
              simp only [goU64, pairs, loads, call, History.settleU64_of_lt small]
          | report today =>
              rw [go_row pairs loads call]
              simp only [goU64, pairs, loads, call, History.kindReportU64_of_lt sum]

theorem stepU64_of_lt {shared : Shared routes} (sound : shared.Sound) {action : Action routes}
    (stock : ∀ pair field, stock pair field shared + added pair field shared action < 2 ^ 64)
    (current : ∀ pair field,
      shared.current pair field + added pair field shared action < 2 ^ 64) :
    shared.stepU64 crates action = shared.step crates action := by
  cases action with
  | add thread route kind update =>
      have sum (field : Field) :
          shared.current (route, kind) field + update.amount field < 2 ^ 64 := by
        have sum := current (route, kind) field
        rwa [added, if_pos rfl] at sum
      rw [stepU64, addU64_of_lt sum, step]
  | call call => rfl
  | go env =>
      cases held : shared.holder with
      | none => simp only [stepU64, step, held]
      | some progress =>
          simp only [stepU64, step, held]
          exact goU64_of_lt crates sound env held
            (fun pair field => (Nat.le_add_right _ _).trans_lt (stock pair field))
            fun pair field => (Nat.le_add_right _ _).trans_lt (current pair field)

/-- While the traffic fits into 64 bits, the additions of `u64` do what those of natural numbers
do, in every run and with every answer. -/
theorem runU64_of_lt (distinct : routes.Nodup) {shared : Shared routes} (sound : shared.Sound)
    {actions : List (Action routes)}
    (stock : ∀ pair field, stock pair field shared +
      (machine crates).total (added pair field) shared actions < 2 ^ 64)
    (current : ∀ pair field, shared.current pair field +
      (machine crates).total (added pair field) shared actions < 2 ^ 64) :
    (machineU64 crates).run shared actions = (machine crates).run shared actions ∧
      (machineU64 crates).trace shared actions = (machine crates).trace shared actions := by
  induction actions generalizing shared with
  | nil => exact ⟨rfl, rfl⟩
  | cons action actions ih =>
      simp only [Machine.total, ← Nat.add_assoc] at stock current
      have same : (machineU64 crates).step shared action = (machine crates).step shared action :=
        stepU64_of_lt crates sound
          (fun pair field => (Nat.le_add_right _ _).trans_lt (stock pair field))
          fun pair field => (Nat.le_add_right _ _).trans_lt (current pair field)
      have next : (machineU64 crates).next shared action = (machine crates).next shared action :=
        congrArg Prod.fst same
      obtain ⟨run, trace⟩ := ih (sound.next crates action)
        (fun pair field => by
          have balance := stock_next crates distinct sound action pair field
          have sum := stock pair field
          omega)
        (fun pair field => by
          rw [current_next]
          exact current pair field)
      rw [Machine.run_cons, Machine.run_cons, Machine.trace, Machine.trace, next, run, trace]
      exact ⟨rfl, congrArg (· ++ _) (congrArg Prod.snd same)⟩

end Stats.Shared

end Proxemby
