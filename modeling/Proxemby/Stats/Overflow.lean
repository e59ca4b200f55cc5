import Proxemby.Stats.Flush

/-!
# The arithmetic of `u64`

Atomic additions wrap around at `2 ^ 64`, and so does `+=` in a release build.  Here are the
counters, the flush and its day totals with these additions.  As long as every sum is below
`2 ^ 64` they do what their counterparts on natural numbers do.
-/

namespace Proxemby

/-- `+` of `u64`. -/
def addU64 (left right : Nat) : Nat := (left + right) % 2 ^ 64

theorem addU64_of_lt {left right : Nat} (small : left + right < 2 ^ 64) :
    addU64 left right = left + right := Nat.mod_eq_of_lt small

namespace Totals

def addU64 (totals other : Totals) : Totals where
  requests := Proxemby.addU64 totals.requests other.requests
  bytesOut := Proxemby.addU64 totals.bytesOut other.bytesOut
  bytesIn := Proxemby.addU64 totals.bytesIn other.bytesIn

theorem get_addU64 (totals other : Totals) (field : Field) :
    (totals.addU64 other).get field = Proxemby.addU64 (totals.get field) (other.get field) := by
  cases field <;> rfl

theorem fits_addU64 (totals other : Totals) : (totals.addU64 other).Fits := by
  intro field
  rw [get_addU64]
  exact Nat.mod_lt _ (Nat.two_pow_pos 64)

theorem addU64_of_fits {totals other : Totals} (fits : (totals.add other).Fits) :
    totals.addU64 other = totals.add other := by
  refine ext_get fun field => ?_
  have small := fits field
  rw [get_add] at small
  rw [get_addU64, get_add, addU64_of_lt small]

end Totals

/-- The numbers of a report are `u64`. -/
structure KindReport.Fits (report : KindReport) : Prop where
  today : report.today.Fits
  month : report.month.Fits
  sinceStart : report.sinceStart.Fits
  active : report.active < 2 ^ 64

def Report.Fits (report : Report) : Prop :=
  ∀ route ∈ report.routes, ∀ kind, (route.kinds kind).Fits

/-- An atomic update: `fetch_add` wraps around. -/
def Shard.updateU64 (shard : Shard) : Update → Shard
  | .addRequest => { shard with requests := addU64 shard.requests 1 }
  | .addBytesOut bytes => { shard with bytesOut := addU64 shard.bytesOut bytes }
  | .addBytesIn bytes => { shard with bytesIn := addU64 shard.bytesIn bytes }
  | .streamStarted => { shard with active := shard.active + 1 }
  | .streamFinished => { shard with active := shard.active - 1 }

theorem Shard.updateU64_of_lt {shard : Shard} {update : Update}
    (small : ∀ field, shard.get field + update.amount field < 2 ^ 64) :
    shard.updateU64 update = shard.update update := by
  cases update with
  | addRequest =>
      have sum : shard.requests + 1 < 2 ^ 64 := small .requests
      rw [updateU64, update, addU64_of_lt sum]
  | addBytesOut bytes =>
      have sum : shard.bytesOut + bytes < 2 ^ 64 := small .bytesOut
      rw [updateU64, update, addU64_of_lt sum]
  | addBytesIn bytes =>
      have sum : shard.bytesIn + bytes < 2 ^ 64 := small .bytesIn
      rw [updateU64, update, addU64_of_lt sum]
  | streamStarted | streamFinished => rfl

namespace Counters

/-- One addition of `totals` or `active`. -/
def loadU64 (counters : Counters) (reading : Reading) : Load → Reading
  | .total shard .requests => { reading with
      totals.requests := addU64 reading.totals.requests (counters shard).requests }
  | .total shard .bytesOut => { reading with
      totals.bytesOut := addU64 reading.totals.bytesOut (counters shard).bytesOut }
  | .total shard .bytesIn => { reading with
      totals.bytesIn := addU64 reading.totals.bytesIn (counters shard).bytesIn }
  | .active shard => { reading with active := reading.active + (counters shard).active }

/-- `totals` when nothing happens in between. -/
def totalsU64 (counters : Counters) : Totals :=
  (totalsLoads.foldl counters.loadU64 ⟨.zero, 0⟩).totals

theorem loadU64_of_fits {counters : Counters} {reading : Reading} {load : Load}
    (fits : (counters.load reading load).totals.Fits) :
    counters.loadU64 reading load = counters.load reading load := by
  cases load with
  | active shard => rfl
  | total shard field =>
      have small := fits field
      cases field with
      | requests => rw [loadU64, Counters.load, addU64_of_lt small]
      | bytesOut => rw [loadU64, Counters.load, addU64_of_lt small]
      | bytesIn => rw [loadU64, Counters.load, addU64_of_lt small]

/-- Only the field that is read has to be small. -/
theorem get_loadU64 {counters : Counters} {reading : Reading} {load : Load} {field : Field}
    (small : (counters.load reading load).totals.get field < 2 ^ 64) :
    (counters.loadU64 reading load).totals.get field =
      (counters.load reading load).totals.get field := by
  cases load with
  | active shard => rfl
  | total shard other =>
      cases other <;> cases field <;>
        first
        | rfl
        | exact addU64_of_lt small

/-- A reading only grows. -/
theorem get_le_foldl (counters : Counters) (field : Field) (loads : List Load)
    (reading : Reading) :
    reading.totals.get field ≤ (loads.foldl counters.load reading).totals.get field := by
  induction loads generalizing reading with
  | nil => exact le_rfl
  | cons load loads ih =>
      refine le_trans ?_ (ih (counters.load reading load))
      rcases counters.load_cases reading field load loads with ⟨shard, -, -, sum⟩ | ⟨-, sum⟩
      · rw [sum]
        exact Nat.le_add_right _ _
      · rw [sum]

theorem foldl_loadU64 {counters : Counters} {loads : List Load} {reading : Reading}
    (fits : (loads.foldl counters.load reading).totals.Fits) :
    loads.foldl counters.loadU64 reading = loads.foldl counters.load reading := by
  induction loads generalizing reading with
  | nil => rfl
  | cons load loads ih =>
      have here : (counters.load reading load).totals.Fits := fun field =>
        (counters.get_le_foldl field loads _).trans_lt (fits field)
      rw [List.foldl_cons, List.foldl_cons, loadU64_of_fits here]
      exact ih fits

theorem totalsU64_of_fits {counters : Counters} (fits : counters.totals.Fits) :
    counters.totalsU64 = counters.totals := by
  rw [totalsU64, foldl_loadU64 fits, totals]

/-- A shard has no more than the whole counter. -/
theorem get_shard_le (counters : Counters) (shard : Fin shardCount) (field : Field) :
    (counters shard).get field ≤ counters.totals.get field := by
  rw [get_totals]
  exact Finset.single_le_sum (f := counters.column field) (fun _ _ => Nat.zero_le _)
    (Finset.mem_univ shard)

end Counters

/-- Add to an entry, which is made when it is missing. -/
def Days.addToU64 (days : Days) (date route kind : Str) (delta : Totals) : Days :=
  days.put date route kind ((days.stored date route kind).addU64 delta)

variable {routes : List Str}

namespace History

/-- Take note of new counter values: what they have gained goes to the day. -/
def settleU64 (today : Str) (history : History routes) (pair : Fin routes.length × Kind)
    (current : Totals) : History routes :=
  let delta := current.minus (history.flushed pair.1 pair.2)
  let flushed := Function.update history.flushed pair.1
    (Function.update (history.flushed pair.1) pair.2 current)
  if delta = .zero then { history with flushed }
  else { days := history.days.addToU64 today (routes.get pair.1) pair.2.name delta, flushed }

/-- A flush adds up an entry like natural numbers while the sum is small. -/
theorem settleU64_of_lt {today : Str} {history : History routes}
    {pair : Fin routes.length × Kind} {current : Totals}
    (small : ∀ field, (history.days.stored today (routes.get pair.1) pair.2.name).get field +
      (current.get field - (history.flushed pair.1 pair.2).get field) < 2 ^ 64) :
    history.settleU64 today pair current = history.settle today pair current := by
  rw [settleU64, settle]
  split
  · rfl
  · have entry : ((history.days.stored today (routes.get pair.1) pair.2.name).add
        (current.minus (history.flushed pair.1 pair.2))).Fits := by
      intro field
      rw [Totals.get_add, Totals.get_minus]
      exact small field
    rw [Days.addToU64, Totals.addU64_of_fits entry, Days.addTo_eq_put]

theorem settleU64_of_fits {today : Str} {history : History routes}
    {pair : Fin routes.length × Kind} {current : Totals}
    (fits : (history.settle today pair current).days.Fits) :
    history.settleU64 today pair current = history.settle today pair current := by
  refine settleU64_of_lt fun field => ?_
  have entry := fits today (routes.get pair.1) pair.2.name field
  rwa [stored_settle, if_pos ⟨rfl, rfl, rfl⟩, Totals.get_add, Totals.get_minus] at entry

theorem fits_settleU64 {history : History routes} (fits : history.days.Fits) (today : Str)
    (pair : Fin routes.length × Kind) (current : Totals) :
    (history.settleU64 today pair current).days.Fits := by
  rw [History.settleU64]
  split
  · exact fits
  · exact fits.put _ _ _ (Totals.fits_addU64 _ _)

theorem keys_settleU64_subset (today : Str) (history : History routes)
    (pair : Fin routes.length × Kind) (current : Totals) :
    (history.settleU64 today pair current).days.keys ⊆ insert today history.days.keys := by
  rw [settleU64]
  split
  · exact Finset.subset_insert today _
  · simp only [Days.addToU64, Days.keys_put, Finset.Subset.refl]

end History

namespace Stats

/-- One atomic update of a counter. -/
def addU64 (stats : Stats routes) (route : Fin routes.length) (kind : Kind)
    (shard : Fin shardCount) (update : Update) : Stats routes :=
  let counters := stats.counters route kind
  { stats with
    counters := Function.update stats.counters route
      (Function.update (stats.counters route) kind
        (Function.update counters shard ((counters shard).updateU64 update))) }

theorem addU64_of_lt {stats : Stats routes} {route : Fin routes.length} {kind : Kind}
    {shard : Fin shardCount} {update : Update}
    (small : ∀ field,
      (stats.counters route kind).totals.get field + update.amount field < 2 ^ 64) :
    stats.addU64 route kind shard update = stats.add route kind shard update := by
  have one (field : Field) :
      (stats.counters route kind shard).get field + update.amount field < 2 ^ 64 :=
    (Nat.add_le_add_right (Counters.get_shard_le _ shard field) _).trans_lt (small field)
  rw [addU64, add, Shard.updateU64_of_lt one]

/-- What all readings of a flush come to, when no other thread comes in between. -/
def settledU64 (stats : Stats routes) (today : Str) : History routes :=
  (pairs routes).foldl
    (fun history pair => history.settleU64 today pair (stats.counters pair.1 pair.2).totalsU64)
    stats.history

/-- `flush_on` when no other thread comes in between. -/
def flushOn (crates : StatsCrates) (stats : Stats routes) (disk : Disk) (env : Env)
    (today : Str) : Stats routes × Disk × Except Str Unit :=
  let (history, disk, result) := (stats.settledU64 today).finish crates stats.path disk env
  ({ stats with history }, disk, result)

end Stats

end Proxemby
