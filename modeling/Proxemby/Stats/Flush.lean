import Mathlib.Data.Char
import Mathlib.Data.List.Lex
import Proxemby.Auth.Store
import Proxemby.Lib.Ordered
import Proxemby.Stats.History

/-!
# Flushes and reports

`Stats` of `src/stats.rs`.  A flush adds to the history of a day what the counters have
gained since the last flush, and a report adds the same to what it reads there.  The
steps between two readings are functions of their own, since other threads can come in
between.
-/

namespace Proxemby

/-- The JSON form of the stats file comes from another crate. -/
structure StatsCrates where
  toVec : Days → Except Str Bytes
  fromSlice : Bytes → Except Str Days

/-- The fields of the file are `u64`: no others are read, and such totals can be read again
once they are written. -/
structure StatsCrates.Documented (crates : StatsCrates) : Prop where
  fits : ∀ data days, crates.fromSlice data = .ok days → days.Fits
  round_trip : ∀ days, days.Fits →
    ∃ data, crates.toVec days = .ok data ∧ crates.fromSlice data = .ok days

/-- Usage for one route and kind, as reported by `/stats`. -/
structure KindReport where
  today : Totals
  month : Totals
  sinceStart : Totals
  active : Nat
  deriving DecidableEq

structure RouteReport where
  route : Str
  kinds : Kind → KindReport

structure Report where
  version : Str
  startedAt : Str
  today : Str
  routes : List RouteReport

section Routes

variable (routes : List Str)

structure History where
  days : Days
  /-- Counter values already added to `days`, per route and kind. -/
  flushed : Fin routes.length → Kind → Totals

structure Stats where
  counters : Fin routes.length → Kind → Counters
  path : Option Str
  history : History routes
  startedAt : Str

/-- The counters in the order in which they are read. -/
def pairs : List (Fin routes.length × Kind) :=
  (List.finRange routes.length).flatMap fun route => kinds.map fun kind => (route, kind)

theorem mem_pairs (pair : Fin routes.length × Kind) : pair ∈ pairs routes := by
  obtain ⟨route, kind⟩ := pair
  cases kind <;> simp [pairs, kinds]

theorem pairs_nodup : (pairs routes).Nodup := by
  rw [pairs, List.nodup_flatMap]
  constructor
  · intro route member
    simp [kinds]
  · refine (List.nodup_finRange _).imp ?_
    intro route other differ
    simp [Function.onFun, List.disjoint_left, kinds, differ]

end Routes

variable {routes : List Str}

namespace History

/-- Take note of new counter values: what they have gained goes to the day. -/
def settle (today : Str) (history : History routes) (pair : Fin routes.length × Kind)
    (current : Totals) : History routes :=
  let delta := current.minus (history.flushed pair.1 pair.2)
  let flushed := Function.update history.flushed pair.1
    (Function.update (history.flushed pair.1) pair.2 current)
  if delta = .zero then { history with flushed }
  else { days := history.days.addTo today (routes.get pair.1) pair.2.name delta, flushed }

theorem flushed_settle (today : Str) (history : History routes)
    (pair other : Fin routes.length × Kind) (current : Totals) :
    (history.settle today pair current).flushed other.1 other.2 =
      if other = pair then current else history.flushed other.1 other.2 := by
  have flushed : (history.settle today pair current).flushed = Function.update history.flushed
      pair.1 (Function.update (history.flushed pair.1) pair.2 current) := by
    rw [settle]
    split <;> rfl
  rw [flushed]
  by_cases sameRoute : other.1 = pair.1
  · by_cases sameKind : other.2 = pair.2
    · rw [if_pos (Prod.ext sameRoute sameKind), sameRoute, Function.update_self, sameKind,
        Function.update_self]
    · rw [if_neg (fun same => sameKind (by rw [same])), sameRoute, Function.update_self,
        Function.update_of_ne sameKind]
  · rw [if_neg (fun same => sameRoute (by rw [same])), Function.update_of_ne sameRoute]

/-- Nothing new adds nothing. -/
theorem days_settle_zero {today : Str} {history : History routes}
    {pair : Fin routes.length × Kind} {current : Totals}
    (nothing : current.minus (history.flushed pair.1 pair.2) = .zero) :
    (history.settle today pair current).days = history.days := by
  rw [settle, if_pos nothing]

theorem stored_settle (today : Str) (history : History routes)
    (pair : Fin routes.length × Kind) (current : Totals) (date route kind : Str) :
    (history.settle today pair current).days.stored date route kind =
      if date = today ∧ route = routes.get pair.1 ∧ kind = pair.2.name then
        (history.days.stored date route kind).add
          (current.minus (history.flushed pair.1 pair.2))
      else history.days.stored date route kind := by
  by_cases nothing : current.minus (history.flushed pair.1 pair.2) = .zero
  · rw [days_settle_zero nothing, nothing]
    split
    · exact Totals.ext_get fun field => by simp
    · rfl
  · simp only [settle, if_neg nothing, Days.stored_addTo]

theorem sum_settle (today : Str) (history : History routes)
    (pair : Fin routes.length × Kind) (current : Totals) (route kind : Str) (field : Field) :
    (history.settle today pair current).days.sum route kind field =
      history.days.sum route kind field +
        if route = routes.get pair.1 ∧ kind = pair.2.name then
          current.get field - (history.flushed pair.1 pair.2).get field
        else 0 := by
  by_cases nothing : current.minus (history.flushed pair.1 pair.2) = .zero
  · have none := congrArg (Totals.get · field) nothing
    simp only [Totals.get_minus, Totals.get_zero] at none
    rw [days_settle_zero nothing, none, ite_self, add_zero]
  · simp only [settle, if_neg nothing, Days.sum_addTo, Totals.get_minus]

/-- Other dates are left alone, with all that is in them. -/
theorem lookup_settle {today date : Str} (other : date ≠ today) (history : History routes)
    (pair : Fin routes.length × Kind) (current : Totals) :
    (history.settle today pair current).days.lookup date = history.days.lookup date := by
  rw [settle]
  split
  · rfl
  · rw [Days.addTo, Finmap.lookup_insert_of_ne _ other]

/-- Other routes are left alone. -/
theorem lookup_settle_route (today : Str) {history : History routes}
    {pair : Fin routes.length × Kind} (current : Totals) (date : Str) {route : Str}
    (other : route ≠ routes.get pair.1) :
    ((history.settle today pair current).days.lookup date).bind (·.lookup route) =
      (history.days.lookup date).bind (·.lookup route) := by
  by_cases same : date = today
  · subst same
    rw [settle]
    split
    · rfl
    · rw [Days.addTo, Finmap.lookup_insert, Option.bind_some, Finmap.lookup_insert_of_ne _ other]
      cases history.days.lookup date with
      | none => simp
      | some entries => simp
  · rw [lookup_settle same]

/-- The end of a flush: old days are dropped, and the file is written. -/
def finish (crates : StatsCrates) (path : Option Str) (disk : Disk) (env : Env)
    (history : History routes) : History routes × Disk × Except Str Unit :=
  let history := { history with days := history.days.evict }
  match path with
  | none => (history, disk, .ok ())
  | some path =>
      match crates.toVec history.days with
      | .error e => (history, disk, .error e)
      | .ok data =>
          match writePrivateFile disk env path data with
          | (disk, .ok ()) => (history, disk, .ok ())
          | (disk, .error e) =>
              (history, disk, .error ("save stats ".toList ++ path ++ ": ".toList ++ e))

/-- Whether or not the file is written, the history in memory goes on without the old days. -/
theorem finish_fst (crates : StatsCrates) (path : Option Str) (disk : Disk) (env : Env)
    (history : History routes) :
    (history.finish crates path disk env).1 = { history with days := history.days.evict } := by
  cases path with
  | none => rfl
  | some name =>
      cases text : crates.toVec history.days.evict with
      | error e => simp [finish, text]
      | ok data =>
          cases failure : env.writeError with
          | none => simp [finish, text, writePrivateFile, failure]
          | some e => simp [finish, text, writePrivateFile, failure]

/-- The report on one route and kind. -/
def kindReport (history : History routes) (today : Str) (pair : Fin routes.length × Kind)
    (reading : Reading) : KindReport :=
  let pending := reading.totals.minus (history.flushed pair.1 pair.2)
  let stored := fun date => history.days.stored date (routes.get pair.1) pair.2.name
  let month := today.take 7
  { today := (stored today).add pending
    month := ((Ordered.keys history.days).filter (month.isPrefixOf ·)).foldl
      (fun totals date => totals.add (stored date)) pending
    sinceStart := reading.totals
    active := (max reading.active 0).toNat }

end History

namespace Stats

/-- The version in the package manifest. -/
def version : Str := "0.4.0".toList

/-- Stats of a process that has just started, with the history so far. -/
def fresh (routes : List Str) (path : Option Str) (startedAt : Str) (days : Days) :
    Stats routes where
  counters := fun _ _ => .zero
  path
  history := { days, flushed := fun _ _ => .zero }
  startedAt

/-- Load per-day history from `path` if it exists.  Without a path, history is kept in
memory only. -/
def «open» (crates : StatsCrates) (routes : List Str) (path : Option Str) (disk : Disk)
    (env : Env) : Except Str (Stats routes) :=
  match path with
  | none => .ok (fresh routes path env.now ∅)
  | some name =>
      let failed := "load stats ".toList ++ name ++ ": ".toList
      match env.readError with
      | some e => .error (failed ++ e)
      | none =>
          match disk name with
          | none => .ok (fresh routes path env.now ∅)
          | some data =>
              match crates.fromSlice data with
              | .error e => .error (failed ++ e)
              | .ok days => .ok (fresh routes path env.now days)

/-- The counters for a route, or `none` for an unknown route. -/
def route (routes : List Str) (name : Str) : Option (Fin routes.length) :=
  (List.finRange routes.length).find? fun route => routes.get route = name

/-- One atomic update of a counter. -/
def add (stats : Stats routes) (route : Fin routes.length) (kind : Kind)
    (shard : Fin shardCount) (update : Update) : Stats routes :=
  let counters := stats.counters route kind
  { stats with
    counters := Function.update stats.counters route
      (Function.update (stats.counters route) kind
        (Function.update counters shard ((counters shard).update update))) }

/-- An update changes one shard of one counter. -/
theorem column_add (stats : Stats routes) (route : Fin routes.length) (kind : Kind)
    (shard : Fin shardCount) (update : Update) (pair : Fin routes.length × Kind)
    (field : Field) (shard' : Fin shardCount) :
    ((stats.add route kind shard update).counters pair.1 pair.2).column field shard' =
      (stats.counters pair.1 pair.2).column field shard' +
        if shard' = shard then if (route, kind) = pair then update.amount field else 0 else 0 := by
  obtain ⟨route', kind'⟩ := pair
  simp only [add, Counters.column]
  by_cases sameRoute : route' = route
  · subst sameRoute
    by_cases sameKind : kind' = kind
    · subst sameKind
      by_cases sameShard : shard' = shard
      · simp [sameShard]
      · simp [sameShard]
    · simp [Function.update_of_ne sameKind, Ne.symm sameKind]
  · simp [Function.update_of_ne sameRoute, Ne.symm sameRoute]

/-- Put a report together. -/
def report (stats : Stats routes) (today : Str)
    (rows : Fin routes.length → Kind → KindReport) : Report where
  version := version
  startedAt := stats.startedAt
  today := today
  routes := (List.finRange routes.length).map fun route =>
    { route := routes.get route, kinds := rows route }

/-- What all readings of a flush come to, when no other thread comes in between. -/
def settled (stats : Stats routes) (today : Str) : History routes :=
  (pairs routes).foldl
    (fun history pair => history.settle today pair (stats.counters pair.1 pair.2).totals)
    stats.history

/-- `report_on` when no other thread comes in between. -/
def reportOn (stats : Stats routes) (today : Str) : Report :=
  stats.report today fun route kind =>
    stats.history.kindReport today (route, kind) (stats.counters route kind).read

end Stats

/-! ## Reports -/

theorem get_foldl_add (stored : Str → Totals) (dates : List Str) (totals : Totals)
    (field : Field) :
    (dates.foldl (fun totals date => totals.add (stored date)) totals).get field =
      totals.get field + (dates.map fun date => (stored date).get field).sum := by
  induction dates generalizing totals with
  | nil => simp
  | cons date dates ih => simp [ih, add_assoc]

/-- The month of a report has the dates that start like the day. -/
theorem get_month (history : History routes) (today : Str)
    (pair : Fin routes.length × Kind) (reading : Reading) (field : Field) :
    (history.kindReport today pair reading).month.get field =
      (reading.totals.get field - (history.flushed pair.1 pair.2).get field) +
        ∑ date ∈ history.days.keys with (today.take 7).isPrefixOf date,
          (history.days.stored date (routes.get pair.1) pair.2.name).get field := by
  have dates : (history.days.keys.filter fun date => (today.take 7).isPrefixOf date = true) =
      ((Ordered.keys history.days).filter ((today.take 7).isPrefixOf ·)).toFinset := by
    ext date
    simp [Finmap.mem_keys]
  rw [dates, List.sum_toFinset _ ((Ordered.keys_nodup _).filter _)]
  simp only [History.kindReport]
  rw [get_foldl_add, Totals.get_minus]

end Proxemby
