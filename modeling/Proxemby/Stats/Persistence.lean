import Proxemby.Lib.Machine
import Proxemby.Stats.Overflow
import Proxemby.Stats.Reference

/-!
# The stats file across failures and restarts

A process adds to its counters and flushes them, each call a step of its own.  A flush
that cannot write the file has changed the history in memory all the same, so the next
one that succeeds has to write all of it.  A restart starts again from the file.  The
additions are those of `u64`.
-/

namespace Proxemby.Stats

variable {routes : List Str}

/-! ## One flush -/

/-- The readings of a flush, for some of the counters. -/
def settleAll (today : Str) (totals : Fin routes.length × Kind → Totals)
    (history : History routes) (left : List (Fin routes.length × Kind)) : History routes :=
  left.foldl (fun history pair => history.settle today pair (totals pair)) history

section SettleAll

variable {today : Str} {totals : Fin routes.length × Kind → Totals} {history : History routes}
  {left : List (Fin routes.length × Kind)}

theorem settleAll_cons (first : Fin routes.length × Kind) :
    settleAll today totals history (first :: left) =
      settleAll today totals (history.settle today first (totals first)) left := rfl

theorem flushed_settleAll (pair : Fin routes.length × Kind) :
    (settleAll today totals history left).flushed pair.1 pair.2 =
      if pair ∈ left then totals pair else history.flushed pair.1 pair.2 := by
  induction left generalizing history with
  | nil => rfl
  | cons first left ih =>
      rw [settleAll_cons, ih, History.flushed_settle]
      by_cases later : pair ∈ left
      · rw [if_pos later, if_pos (List.mem_cons_of_mem _ later)]
      · by_cases same : pair = first
        · rw [if_neg later, if_pos same, same, if_pos List.mem_cons_self]
        · rw [if_neg later, if_neg same, if_neg (by simp [same, later])]

/-- The entries of the day gain what is new in their counters. -/
theorem stored_settleAll (nodup : left.Nodup) (date route kind : Str) (field : Field) :
    ((settleAll today totals history left).days.stored date route kind).get field =
      (history.days.stored date route kind).get field +
        if date = today then
          (left.map fun pair =>
            if route = routes.get pair.1 ∧ kind = pair.2.name then
              (totals pair).get field - (history.flushed pair.1 pair.2).get field
            else 0).sum
        else 0 := by
  induction left generalizing history with
  | nil => simp [settleAll]
  | cons first left ih =>
      obtain ⟨out, nodup⟩ := List.nodup_cons.mp nodup
      -- The counters that are still to be read are as they were.
      have rest : (left.map fun pair =>
            if route = routes.get pair.1 ∧ kind = pair.2.name then
              (totals pair).get field -
                ((history.settle today first (totals first)).flushed pair.1 pair.2).get field
            else 0) =
          left.map fun pair =>
            if route = routes.get pair.1 ∧ kind = pair.2.name then
              (totals pair).get field - (history.flushed pair.1 pair.2).get field
            else 0 := by
        refine List.map_congr_left fun pair member => ?_
        rw [History.flushed_settle, if_neg (ne_of_mem_of_not_mem member out)]
      rw [settleAll_cons, ih nodup, rest, History.stored_settle]
      by_cases day : date = today
      · rw [if_pos day, if_pos day, List.map_cons, List.sum_cons, ← add_assoc]
        congr 1
        by_cases entry : route = routes.get first.1 ∧ kind = first.2.name
        · rw [if_pos ⟨day, entry⟩, if_pos entry, Totals.get_add, Totals.get_minus]
        · rw [if_neg (fun both => entry both.2), if_neg entry, add_zero]
      · rw [if_neg day, if_neg day, if_neg (fun all => day all.1)]

/-- The readings of a flush take nothing away. -/
theorem stored_le_settleAll (nodup : left.Nodup) (date route kind : Str) (field : Field) :
    (history.days.stored date route kind).get field ≤
      ((settleAll today totals history left).days.stored date route kind).get field := by
  rw [stored_settleAll nodup]
  exact Nat.le_add_right _ _

theorem settleAllU64_of_fits (nodup : left.Nodup)
    (fits : (settleAll today totals history left).days.Fits) :
    left.foldl (fun history pair => history.settleU64 today pair (totals pair)) history =
      settleAll today totals history left := by
  induction left generalizing history with
  | nil =>
      rw [List.foldl_nil]
      rfl
  | cons first left ih =>
      have later := (List.nodup_cons.mp nodup).2
      rw [settleAll_cons] at fits ⊢
      have here : (history.settle today first (totals first)).days.Fits :=
        fun date route kind field =>
          (stored_le_settleAll later date route kind field).trans_lt (fits date route kind field)
      rw [List.foldl_cons, History.settleU64_of_fits here]
      exact ih later fits

end SettleAll

/-- What a counter has gained since the last flush. -/
def gained (stats : Stats routes) (pair : Fin routes.length × Kind) (field : Field) : Nat :=
  (stats.counters pair.1 pair.2).totals.get field -
    (stats.history.flushed pair.1 pair.2).get field

/-- What the counters of a route and kind have gained since the last flush. -/
def unflushed (stats : Stats routes) (route kind : Str) (field : Field) : Nat :=
  ((pairs routes).map fun pair =>
    if route = routes.get pair.1 ∧ kind = pair.2.name then stats.gained pair field else 0).sum

/-- No counter is below its value at the last flush. -/
def Ahead (stats : Stats routes) : Prop :=
  ∀ (pair : Fin routes.length × Kind) field,
    (stats.history.flushed pair.1 pair.2).get field ≤
      (stats.counters pair.1 pair.2).totals.get field

theorem totals_zero (field : Field) : Counters.zero.totals.get field = 0 := by
  rw [Counters.get_totals]
  exact Finset.sum_eq_zero fun shard _ => Shard.get_zero field

/-- A process starts with nothing to flush. -/
theorem unflushed_fresh (path : Option Str) (startedAt : Str) (days : Days) (route kind : Str)
    (field : Field) :
    (fresh routes path startedAt days).unflushed route kind field = 0 := by
  have none (pair : Fin routes.length × Kind) :
      (fresh routes path startedAt days).gained pair field = 0 := by
    rw [gained, show (fresh routes path startedAt days).counters = fun _ _ => .zero from rfl,
      totals_zero, Nat.zero_sub]
  simp [unflushed, none]

theorem get_totals_add (stats : Stats routes) (route : Fin routes.length) (kind : Kind)
    (shard : Fin shardCount) (update : Update) (pair : Fin routes.length × Kind)
    (field : Field) :
    ((stats.add route kind shard update).counters pair.1 pair.2).totals.get field =
      (stats.counters pair.1 pair.2).totals.get field +
        if (route, kind) = pair then update.amount field else 0 := by
  simp [Counters.get_totals, column_add, Finset.sum_add_distrib]

theorem Ahead.add {stats : Stats routes} (ahead : stats.Ahead) (route : Fin routes.length)
    (kind : Kind) (shard : Fin shardCount) (update : Update) :
    (stats.add route kind shard update).Ahead := by
  intro pair field
  rw [get_totals_add]
  exact (ahead pair field).trans (Nat.le_add_right _ _)

theorem sum_map_single {α : Type*} [DecidableEq α] {list : List α} (nodup : list.Nodup)
    {value : α} (member : value ∈ list) (amount : Nat) :
    (list.map fun other => if other = value then amount else 0).sum = amount := by
  rw [List.sum_map_eq_nsmul_single value _ (fun _ other _ => if_neg other),
    List.count_eq_one_of_mem nodup member, one_smul, if_pos rfl]

/-- An addition waits for the next flush. -/
theorem unflushed_add {stats : Stats routes} (ahead : stats.Ahead) (route : Fin routes.length)
    (kind : Kind) (shard : Fin shardCount) (update : Update) (name kindName : Str)
    (field : Field) :
    (stats.add route kind shard update).unflushed name kindName field =
      stats.unflushed name kindName field +
        if name = routes.get route ∧ kindName = kind.name then update.amount field else 0 := by
  have each (pair : Fin routes.length × Kind) :
      (if name = routes.get pair.1 ∧ kindName = pair.2.name then
          (stats.add route kind shard update).gained pair field else 0) =
        (if name = routes.get pair.1 ∧ kindName = pair.2.name then
          stats.gained pair field else 0) +
          if pair = (route, kind) then
            if name = routes.get route ∧ kindName = kind.name then update.amount field else 0
          else 0 := by
    have below := ahead pair field
    have more : (stats.add route kind shard update).gained pair field =
        stats.gained pair field + if pair = (route, kind) then update.amount field else 0 := by
      have same : (stats.add route kind shard update).history = stats.history := rfl
      simp only [gained, get_totals_add, same, Nat.sub_add_comm below, eq_comm]
    rw [more]
    by_cases same : pair = (route, kind)
    · subst same
      by_cases entry : name = routes.get route ∧ kindName = kind.name
      · simp only [if_pos entry, if_true]
      · simp only [if_neg entry, if_true]
    · simp only [if_neg same, add_zero]
  rw [unflushed, List.map_congr_left (fun pair _ => each pair), List.sum_map_add,
    sum_map_single (pairs_nodup routes) (mem_pairs routes _), unflushed]

theorem stored_settled (stats : Stats routes) (today date route kind : Str) (field : Field) :
    ((stats.settled today).days.stored date route kind).get field =
      (stats.history.days.stored date route kind).get field +
        if date = today then stats.unflushed route kind field else 0 :=
  stored_settleAll (pairs_nodup routes) date route kind field

theorem flushed_settled (stats : Stats routes) (today : Str) (pair : Fin routes.length × Kind) :
    (stats.settled today).flushed pair.1 pair.2 =
      (stats.counters pair.1 pair.2).totals :=
  (flushed_settleAll pair).trans (if_pos (mem_pairs routes pair))

/-- The flush is the one on natural numbers while its sums fit into 64 bits. -/
theorem settledU64_of_fits {stats : Stats routes} {today : Str}
    (counters : ∀ pair : Fin routes.length × Kind, (stats.counters pair.1 pair.2).totals.Fits)
    (fits : (stats.settled today).days.Fits) : stats.settledU64 today = stats.settled today := by
  have readings : (fun pair : Fin routes.length × Kind =>
      (stats.counters pair.1 pair.2).totalsU64) =
        fun pair => (stats.counters pair.1 pair.2).totals :=
    funext fun pair => Counters.totalsU64_of_fits (counters pair)
  have same := congrArg (fun totals : Fin routes.length × Kind → Totals =>
    (pairs routes).foldl (fun history pair => history.settleU64 today pair (totals pair))
      stats.history) readings
  exact same.trans (settleAllU64_of_fits (pairs_nodup routes) fits)

theorem keys_settledU64_subset (stats : Stats routes) (today : Str) :
    (stats.settledU64 today).days.keys ⊆ insert today stats.history.days.keys := by
  refine List.foldlRecOn (pairs routes) _
    (motive := fun history : History routes =>
      history.days.keys ⊆ insert today stats.history.days.keys) (Finset.subset_insert _ _) ?_
  intro history subset pair _
  refine (History.keys_settleU64_subset _ _ _ _).trans ?_
  rw [Finset.insert_subset_iff]
  exact ⟨Finset.mem_insert_self _ _, subset⟩

theorem fits_settledU64 {stats : Stats routes} (fits : stats.history.days.Fits) (today : Str) :
    (stats.settledU64 today).days.Fits :=
  List.foldlRecOn (pairs routes) _ (motive := fun history : History routes => history.days.Fits)
    fits fun _ fits pair _ => History.fits_settleU64 fits today pair _

variable {crates : StatsCrates}

/-- What a flush does in memory does not depend on the file. -/
theorem flushOn_fst (stats : Stats routes) (disk : Disk) (env : Env) (today : Str) :
    (stats.flushOn crates disk env today).1 =
      { stats with
        history :=
          { stats.settledU64 today with days := (stats.settledU64 today).days.evict } } := by
  rw [← History.finish_fst crates stats.path disk env]
  rfl

/-- A flush that returns `Ok` has written the whole history. -/
theorem flushOn_ok (documented : crates.Documented) {stats : Stats routes} {path : Str}
    (named : stats.path = some path) {today : Str}
    (fits : (stats.settledU64 today).days.evict.Fits) {disk : Disk} {env : Env}
    (ok : (stats.flushOn crates disk env today).2.2 = .ok ()) :
    ∃ data, (stats.flushOn crates disk env today).2.1 path = some data ∧
      crates.fromSlice data = .ok (stats.settledU64 today).days.evict := by
  obtain ⟨data, written, read⟩ := documented.round_trip _ fits
  cases failure : env.writeError with
  | none =>
      refine ⟨data, ?_, read⟩
      simp [flushOn, History.finish, named, written, writePrivateFile, failure]
  | some e => simp [flushOn, History.finish, named, written, writePrivateFile, failure] at ok

/-- A flush that fails leaves the file as it was. -/
theorem flushOn_error {stats : Stats routes} {disk : Disk} {env : Env} {today : Str}
    (error : (stats.flushOn crates disk env today).2.2 ≠ .ok ()) :
    (stats.flushOn crates disk env today).2.1 = disk := by
  cases named : stats.path with
  | none => simp [flushOn, History.finish, named]
  | some path =>
      cases text : crates.toVec (stats.settledU64 today).days.evict with
      | error e => simp [flushOn, History.finish, named, text]
      | ok data =>
          cases failure : env.writeError with
          | none => simp [flushOn, History.finish, named, text, writePrivateFile, failure] at error
          | some e => simp [flushOn, History.finish, named, text, writePrivateFile, failure]

/-! ## Processes one after another -/

/-- The statistics of a process. -/
structure Process where
  routes : List Str
  stats : Stats routes

/-- The disk, and the process that runs, if there is one. -/
structure Runtime where
  disk : Disk
  process : Option Process

/-- An addition to the counters of a route, a flush, or a start of the process, which ends
the one that runs. -/
inductive Event where
  | add (route : Str) (kind : Kind) (shard : Fin shardCount) (update : Update)
  | flush (today : Str) (env : Env)
  | «open» (routes : List Str) (env : Env)

variable (crates) in
def step (path : Str) (runtime : Runtime) : Event → Runtime × List (Except Str Unit)
  | .add name kind shard update =>
      match runtime.process with
      | none => (runtime, [])
      | some ⟨routes, stats⟩ =>
          match route routes name with
          | none => (runtime, [])
          | some route =>
              ({ runtime with process := some ⟨routes, stats.addU64 route kind shard update⟩ }, [])
  | .flush today env =>
      match runtime.process with
      | none => (runtime, [])
      | some ⟨routes, stats⟩ =>
          let (stats, disk, result) := stats.flushOn crates runtime.disk env today
          ({ disk, process := some ⟨routes, stats⟩ }, [result])
  | .open routes env =>
      match Stats.open crates routes (some path) runtime.disk env with
      | .error e => ({ runtime with process := none }, [.error e])
      | .ok stats => ({ runtime with process := some ⟨routes, stats⟩ }, [.ok ()])

variable (crates) in
def lifetimes (path : Str) : Machine Runtime Event (Except Str Unit) where
  step := step crates path

/-- The date of the first flush. -/
def firstFlush : List Event → Option Str
  | [] => none
  | .flush today _ :: _ => some today
  | .add .. :: events => firstFlush events
  | .open .. :: events => firstFlush events

/-- What the additions to a route and kind come to of which the first flush afterwards has
a date; without a date, those after the last flush. -/
def booked (routes : List Str) (date : Option Str) (route kind : Str) (field : Field) :
    List Event → Nat
  | [] => 0
  | .add name kind' _ update :: events =>
      (if firstFlush events = date ∧ name ∈ routes ∧ route = name ∧ kind = kind'.name then
        update.amount field else 0) + booked routes date route kind field events
  | .flush .. :: events => booked routes date route kind field events
  | .open .. :: events => booked routes date route kind field events

/-- What the additions to a route and kind come to. -/
def added (routes : List Str) (route kind : Str) (field : Field) : List Event → Nat
  | [] => 0
  | .add name kind' _ update :: events =>
      (if name ∈ routes ∧ route = name ∧ kind = kind'.name then update.amount field else 0) +
        added routes route kind field events
  | .flush .. :: events => added routes route kind field events
  | .open .. :: events => added routes route kind field events

/-- A flush adds nothing. -/
theorem added_append_flush (routes : List Str) (route kind : Str) (field : Field)
    (events : List Event) (today : Str) (env : Env) :
    added routes route kind field (events ++ [.flush today env]) =
      added routes route kind field events := by
  induction events with
  | nil => rfl
  | cons event events ih => cases event <;> simp only [List.cons_append, added, ih]

variable (crates) in
/-- What the file holds; nothing when there is none. -/
def held (path : Str) (disk : Disk) : Days :=
  match (disk path).map crates.fromSlice with
  | some (.ok days) => days
  | _ => ∅

/-! ## What a process carries along -/

/-- The statistics of a process that keeps a file of few dates. -/
structure Kept (path : Str) (dates : Finset Str) (stats : Stats routes) : Prop where
  named : stats.path = some path
  fits : stats.history.days.Fits
  dated : stats.history.days.keys ⊆ dates

namespace Kept

variable {path : Str} {dates : Finset Str} {stats : Stats routes}

theorem fresh (path : Str) {dates : Finset Str} (startedAt : Str) {days : Days}
    (fits : days.Fits) (dated : days.keys ⊆ dates) :
    Kept path dates (.fresh routes (some path) startedAt days) where
  named := rfl
  fits := fits
  dated := dated

theorem add (kept : Kept path dates stats) (route : Fin routes.length) (kind : Kind)
    (shard : Fin shardCount) (update : Update) :
    Kept path dates (stats.addU64 route kind shard update) where
  named := kept.named
  fits := kept.fits
  dated := kept.dated

/-- With few dates, nothing is evicted. -/
theorem evict_settled (kept : Kept path dates stats) (few : dates.card ≤ keepDays) {today : Str}
    (dated : today ∈ dates) :
    (stats.settledU64 today).days.keys ⊆ dates ∧
      (stats.settledU64 today).days.evict = (stats.settledU64 today).days := by
  have subset : (stats.settledU64 today).days.keys ⊆ dates :=
    (stats.keys_settledU64_subset today).trans (Finset.insert_subset dated kept.dated)
  exact ⟨subset, Days.evict_self ((Finset.card_le_card subset).trans few)⟩

theorem history_flushOn (kept : Kept path dates stats) (few : dates.card ≤ keepDays)
    (disk : Disk) (env : Env) {today : Str} (dated : today ∈ dates) :
    (stats.flushOn crates disk env today).1 =
      { stats with history := stats.settledU64 today } := by
  rw [flushOn_fst, (kept.evict_settled few dated).2]

variable (crates) in
theorem flushOn (kept : Kept path dates stats) (few : dates.card ≤ keepDays) (disk : Disk)
    (env : Env) {today : Str} (dated : today ∈ dates) :
    Kept path dates (stats.flushOn crates disk env today).1 := by
  rw [kept.history_flushOn few disk env dated]
  exact ⟨kept.named, fits_settledU64 kept.fits today, (kept.evict_settled few dated).1⟩

/-- A flush that returns `Ok` writes the history that the process goes on with. -/
theorem written (kept : Kept path dates stats) (documented : crates.Documented)
    (few : dates.card ≤ keepDays) {disk : Disk} {env : Env} {today : Str} (dated : today ∈ dates)
    (ok : (stats.flushOn crates disk env today).2.2 = .ok ()) :
    ∃ data, (stats.flushOn crates disk env today).2.1 path = some data ∧
      crates.fromSlice data = .ok (stats.settledU64 today).days := by
  have same := (kept.evict_settled few dated).2
  have fits : (stats.settledU64 today).days.evict.Fits := by
    rw [same]
    exact fits_settledU64 kept.fits today
  obtain ⟨data, file, content⟩ := flushOn_ok documented kept.named fits ok
  exact ⟨data, file, by rw [content, same]⟩

end Kept

/-- What the entries of a date gain by some events; without a date, what the events leave
for the next flush. -/
def gain (stats : Stats routes) (date : Option Str) (route kind : Str) (field : Field)
    (events : List Event) : Nat :=
  booked routes date route kind field events +
    if firstFlush events = date then stats.unflushed route kind field else 0

section Gain

variable {stats : Stats routes} {events : List Event}

/-- An addition to an unknown route is none. -/
theorem gain_unknown {name : Str} (absent : name ∉ routes) (kind' : Kind)
    (shard : Fin shardCount) (update : Update) (date : Option Str) (route kind : Str)
    (field : Field) :
    stats.gain date route kind field (.add name kind' shard update :: events) =
      stats.gain date route kind field events := by
  have none : ¬(firstFlush events = date ∧ name ∈ routes ∧ route = name ∧ kind = kind'.name) :=
    fun all => absent all.2.1
  rw [gain, gain, booked, firstFlush, if_neg none, zero_add]

theorem gain_add (ahead : stats.Ahead) (index : Fin routes.length) (kind' : Kind)
    (shard : Fin shardCount) (update : Update) (date : Option Str) (route kind : Str)
    (field : Field) :
    stats.gain date route kind field (.add (routes.get index) kind' shard update :: events) =
      (stats.add index kind' shard update).gain date route kind field events := by
  have known : routes.get index ∈ routes := routes.get_mem index
  rw [gain, gain, booked, firstFlush, unflushed_add ahead]
  by_cases day : firstFlush events = date
  · simp only [day, known, true_and, if_true]
    omega
  · simp only [day, false_and, if_false, zero_add]

theorem unflushed_settled (stats : Stats routes) (today route kind : Str) (field : Field) :
    ({ stats with history := stats.settled today } : Stats routes).unflushed route kind field =
      0 := by
  simp [unflushed, gained, flushed_settled]

/-- A flush books what has been waiting. -/
theorem gain_flush (today : Str) (env : Env) (date : Option Str) (route kind : Str)
    (field : Field) :
    stats.gain date route kind field (.flush today env :: events) =
      (if some today = date then stats.unflushed route kind field else 0) +
        ({ stats with history := stats.settled today } : Stats routes).gain date route kind
          field events := by
  rw [gain, gain, unflushed_settled, ite_self, add_zero, booked, firstFlush, add_comm]

end Gain

/-- How the statistics of a process after some events come from those before. -/
structure Carries (before : Stats routes) (events : List Event) (after : Stats routes) :
    Prop where
  stored : ∀ date route kind field, (after.history.days.stored date route kind).get field =
    (before.history.days.stored date route kind).get field +
      before.gain (some date) route kind field events
  waiting : ∀ route kind field,
    after.unflushed route kind field = before.gain none route kind field events

namespace Carries

variable {before after : Stats routes} {events : List Event}

theorem nil (stats : Stats routes) : Carries stats [] stats where
  stored _ _ _ _ := by simp [gain, booked, firstFlush]
  waiting _ _ _ := by simp [gain, booked, firstFlush]

theorem unknown {name : Str} (absent : name ∉ routes) (kind : Kind) (shard : Fin shardCount)
    (update : Update) (carries : Carries before events after) :
    Carries before (.add name kind shard update :: events) after where
  stored _ _ _ _ := by rw [gain_unknown absent, carries.stored]
  waiting _ _ _ := by rw [gain_unknown absent, carries.waiting]

theorem add (ahead : before.Ahead) (route : Fin routes.length) (kind : Kind)
    (shard : Fin shardCount) (update : Update)
    (carries : Carries (before.add route kind shard update) events after) :
    Carries before (.add (routes.get route) kind shard update :: events) after where
  stored _ _ _ _ := by
    rw [gain_add ahead, carries.stored]
    rfl
  waiting _ _ _ := by rw [gain_add ahead, carries.waiting]

theorem flush {today : Str} (env : Env)
    (carries : Carries { before with history := before.settled today } events after) :
    Carries before (.flush today env :: events) after where
  stored _ _ _ _ := by
    rw [gain_flush, carries.stored, stored_settled, add_assoc]
    simp only [Option.some.injEq, eq_comm]
  waiting _ _ _ := by rw [gain_flush, carries.waiting, if_neg (by simp), zero_add]

end Carries

theorem get_of_route {name : Str} {index : Fin routes.length}
    (found : route routes name = some index) : routes.get index = name := by
  simpa using List.find?_some found

/-! ## Sums that fit -/

/-- The sums that a process comes to by some events are numbers of 64 bits: what its counters
count, and what each entry of its history gains. -/
structure Small (stats : Stats routes) (events : List Event) : Prop where
  counters : ∀ (pair : Fin routes.length × Kind) field,
    (stats.counters pair.1 pair.2).totals.get field +
      added routes (routes.get pair.1) pair.2.name field events < 2 ^ 64
  entries : ∀ date route kind field, (stats.history.days.stored date route kind).get field +
    stats.gain (some date) route kind field events < 2 ^ 64

namespace Small

variable {stats : Stats routes} {events : List Event}

theorem fresh {path : Option Str} {startedAt : Str} {days : Days}
    (counters : ∀ route kind field, added routes route kind field events < 2 ^ 64)
    (entries : ∀ date route kind field, (days.stored date route kind).get field +
      booked routes (some date) route kind field events < 2 ^ 64) :
    Small (.fresh routes path startedAt days) events where
  counters pair field := by
    have none : ((Stats.fresh routes path startedAt days).counters pair.1 pair.2).totals.get
        field = 0 := totals_zero field
    rw [none, Nat.zero_add]
    exact counters _ _ field
  entries date route kind field := by
    rw [gain, unflushed_fresh, ite_self, Nat.add_zero]
    exact entries date route kind field

theorem unknown {name : Str} {kind : Kind} {shard : Fin shardCount} {update : Update}
    (absent : name ∉ routes) (small : Small stats (.add name kind shard update :: events)) :
    Small stats events where
  counters pair field := by
    have sum := small.counters pair field
    rwa [added, if_neg (fun all => absent all.1), Nat.zero_add] at sum
  entries date route kind field := by
    have sum := small.entries date route kind field
    rwa [gain_unknown absent] at sum

/-- A counter that the events do not bring to `2 ^ 64` counts like a natural number. -/
theorem add (ahead : stats.Ahead) {index : Fin routes.length} {kind : Kind}
    {shard : Fin shardCount} {update : Update}
    (small : Small stats (.add (routes.get index) kind shard update :: events)) :
    stats.addU64 index kind shard update = stats.add index kind shard update ∧
      Small (stats.add index kind shard update) events := by
  have known : routes.get index ∈ routes := routes.get_mem index
  refine ⟨addU64_of_lt fun field => ?_, ?_, ?_⟩
  · have sum := small.counters (index, kind) field
    rw [added, if_pos ⟨known, rfl, rfl⟩, ← Nat.add_assoc] at sum
    exact (Nat.le_add_right _ _).trans_lt sum
  · intro pair field
    have sum := small.counters pair field
    rw [added] at sum
    rw [get_totals_add]
    by_cases same : (index, kind) = pair
    · subst same
      rw [if_pos ⟨known, rfl, rfl⟩] at sum
      rw [if_pos rfl]
      omega
    · rw [if_neg same]
      omega
  · intro date route kind' field
    have sum := small.entries date route kind' field
    rwa [gain_add ahead] at sum

/-- The sums of a flush are those that the events lead to. -/
theorem flush {today : Str} {env : Env} (small : Small stats (.flush today env :: events)) :
    stats.settledU64 today = stats.settled today ∧
      Small { stats with history := stats.settled today } events := by
  have counters (pair : Fin routes.length × Kind) :
      (stats.counters pair.1 pair.2).totals.Fits := fun field =>
    (Nat.le_add_right _ _).trans_lt (small.counters pair field)
  have entries (date route kind : Str) (field : Field) :
      ((stats.settled today).days.stored date route kind).get field +
        ({ stats with history := stats.settled today } : Stats routes).gain (some date) route
          kind field events < 2 ^ 64 := by
    have sum := small.entries date route kind field
    rw [gain_flush] at sum
    rw [stored_settled]
    simp only [Option.some.injEq, eq_comm] at sum ⊢
    omega
  refine ⟨settledU64_of_fits counters fun date route kind field => ?_, small.counters, entries⟩
  exact (Nat.le_add_right _ _).trans_lt (entries date route kind field)

end Small

theorem notMem_of_route {name : Str} (none : route routes name = none) : name ∉ routes := by
  intro member
  obtain ⟨index, rfl⟩ := List.mem_iff_get.mp member
  simpa using List.find?_eq_none.mp none index (List.mem_finRange index)

/-! ## Starts -/

/-- A start that succeeds goes on from what the file holds. -/
theorem eq_fresh_of_open {path : Str} {disk : Disk} {env : Env} {stats : Stats routes}
    (opened : Stats.open crates routes (some path) disk env = .ok stats) :
    stats = .fresh routes (some path) env.now (held crates path disk) := by
  cases failure : env.readError with
  | some e => simp [Stats.open, failure] at opened
  | none =>
      cases file : disk path with
      | none =>
          simp only [Stats.open, failure, file, Except.ok.injEq] at opened
          rw [← opened, held, file]
          rfl
      | some data =>
          cases content : crates.fromSlice data with
          | error e => simp [Stats.open, failure, file, content] at opened
          | ok days =>
              simp only [Stats.open, failure, file, content, Except.ok.injEq] at opened
              rw [← opened, held, file, Option.map_some, content]

theorem open_of_file {path : Str} {disk : Disk} {data : Bytes} (file : disk path = some data)
    {days : Days} (content : crates.fromSlice data = .ok days) {env : Env}
    (readable : env.readError = none) :
    Stats.open crates routes (some path) disk env =
      .ok (.fresh routes (some path) env.now days) := by
  simp [Stats.open, readable, file, content]

/-! ## Runs -/

theorem ahead_settled (stats : Stats routes) (today : Str) :
    ({ stats with history := stats.settled today } : Stats routes).Ahead := by
  intro pair field
  rw [flushed_settled]

variable (crates) in
/-- The dates of the file are among those that occur, and the process keeps the file. -/
structure Sound (path : Str) (dates : Finset Str) (runtime : Runtime) : Prop where
  file : (held crates path runtime.disk).keys ⊆ dates
  process : ∀ process, runtime.process = some process → Kept path dates process.stats

/-- A flush is on one of the dates that occur. -/
def Dated (dates : Finset Str) (event : Event) : Prop :=
  ∀ today env, event = .flush today env → today ∈ dates

section Next

variable {path : Str} {dates : Finset Str} {runtime : Runtime} {process : Process}

theorem next_flush {today : Str} {env : Env} (runs : runtime.process = some process) :
    (lifetimes crates path).next runtime (.flush today env) =
      { disk := (process.stats.flushOn crates runtime.disk env today).2.1
        process := some
          ⟨process.routes, (process.stats.flushOn crates runtime.disk env today).1⟩ } := by
  simp only [Machine.next, lifetimes, step, runs]

theorem outputs_flush {today : Str} {env : Env} (runs : runtime.process = some process) :
    (lifetimes crates path).outputs runtime (.flush today env) =
      [(process.stats.flushOn crates runtime.disk env today).2.2] := by
  simp only [Machine.outputs, lifetimes, step, runs]

theorem next_open {env : Env} {stats : Stats routes}
    (opened : Stats.open crates routes (some path) runtime.disk env = .ok stats) :
    (lifetimes crates path).next runtime (.open routes env) =
      { runtime with process := some ⟨routes, stats⟩ } := by
  simp only [Machine.next, lifetimes, step, opened]

theorem open_of_outputs {env : Env}
    (started : (lifetimes crates path).outputs runtime (.open routes env) = [.ok ()]) :
    ∃ stats, Stats.open crates routes (some path) runtime.disk env = .ok stats := by
  cases opened : Stats.open crates routes (some path) runtime.disk env with
  | error e => simp [Machine.outputs, lifetimes, step, opened] at started
  | ok stats => exact ⟨stats, rfl⟩

theorem held_of_file {disk : Disk} {data : Bytes} (file : disk path = some data) {days : Days}
    (content : crates.fromSlice data = .ok days) : held crates path disk = days := by
  rw [held, file, Option.map_some, content]

/-- A file holds numbers of 64 bits. -/
theorem fits_held (documented : crates.Documented) (path : Str) (disk : Disk) :
    (held crates path disk).Fits := by
  rw [held]
  cases file : disk path with
  | none => exact Days.fits_empty
  | some data =>
      cases content : crates.fromSlice data with
      | error e =>
          simp only [Option.map_some, content]
          exact Days.fits_empty
      | ok days =>
          simp only [Option.map_some, content]
          exact documented.fits data days content

/-- After a flush, the file has the whole history or is as it was. -/
theorem held_flush (documented : crates.Documented) (few : dates.card ≤ keepDays)
    (kept : Kept path dates process.stats) (disk : Disk) {today : Str} (dated : today ∈ dates)
    (env : Env) :
    held crates path (process.stats.flushOn crates disk env today).2.1 =
        (process.stats.settledU64 today).days ∨
      (process.stats.flushOn crates disk env today).2.1 = disk := by
  by_cases ok : (process.stats.flushOn crates disk env today).2.2 = .ok ()
  · obtain ⟨data, file, content⟩ := kept.written documented few dated ok
    exact .inl (held_of_file file content)
  · exact .inr (flushOn_error ok)

theorem Sound.next (documented : crates.Documented) (few : dates.card ≤ keepDays)
    (sound : Sound crates path dates runtime) {event : Event} (dated : Dated dates event) :
    Sound crates path dates ((lifetimes crates path).next runtime event) := by
  cases event with
  | add name kind shard update =>
      cases runs : runtime.process with
      | none => simpa [Machine.next, lifetimes, step, runs] using sound
      | some process =>
          obtain ⟨routes, stats⟩ := process
          cases found : route routes name with
          | none => simpa [Machine.next, lifetimes, step, runs, found] using sound
          | some index =>
              simp only [Machine.next, lifetimes, step, runs, found]
              refine ⟨sound.file, ?_⟩
              rintro _ ⟨⟩
              exact (sound.process _ runs).add index kind shard update
  | flush today env =>
      have occurs := dated today env rfl
      cases runs : runtime.process with
      | none => simpa [Machine.next, lifetimes, step, runs] using sound
      | some process =>
          have kept := sound.process process runs
          rw [next_flush runs]
          refine ⟨?_, ?_⟩
          · rcases held_flush documented few kept runtime.disk occurs env with whole | same
            · rw [whole]
              exact (kept.evict_settled few occurs).1
            · rw [same]
              exact sound.file
          · rintro _ ⟨⟩
            exact kept.flushOn crates few runtime.disk env occurs
  | «open» routes env =>
      cases opened : Stats.open crates routes (some path) runtime.disk env with
      | error e =>
          simp only [Machine.next, lifetimes, step, opened]
          exact ⟨sound.file, fun _ none => by cases none⟩
      | ok stats =>
          simp only [Machine.next, lifetimes, step, opened]
          refine ⟨sound.file, ?_⟩
          rintro _ ⟨⟩
          rw [eq_fresh_of_open opened]
          exact .fresh path env.now (fits_held documented path runtime.disk) sound.file

variable (crates) in
/-- A process that is not ended carries its statistics along, while its sums fit. -/
theorem carries_run (few : dates.card ≤ keepDays) {stats : Stats routes}
    (kept : Kept path dates stats) (ahead : stats.Ahead) {events rest : List Event}
    (small : Small stats (events ++ rest)) (dated : ∀ event ∈ events, Dated dates event)
    (stays : ∀ routes env, .open routes env ∉ events)
    (runs : runtime.process = some ⟨routes, stats⟩) :
    ∃ after : Stats routes,
      ((lifetimes crates path).run runtime events).process = some ⟨routes, after⟩ ∧
        Kept path dates after ∧ Small after rest ∧ Carries stats events after := by
  induction events generalizing runtime stats with
  | nil => exact ⟨stats, runs, kept, small, .nil stats⟩
  | cons event events ih =>
      obtain ⟨occurs, later⟩ := List.forall_mem_cons.mp dated
      have stays' : ∀ routes env, .open routes env ∉ events :=
        fun routes env member => stays routes env (List.mem_cons_of_mem _ member)
      cases event with
      | add name kind shard update =>
          cases found : route routes name with
          | none =>
              have absent := notMem_of_route found
              have same : (lifetimes crates path).next runtime (.add name kind shard update) =
                  runtime := by
                simp only [Machine.next, lifetimes, step, runs, found]
              obtain ⟨after, runs', kept', small', carries⟩ :=
                ih kept ahead (small.unknown absent) later stays' runs
              rw [Machine.run_cons, same]
              exact ⟨after, runs', kept', small', carries.unknown absent kind shard update⟩
          | some index =>
              rw [List.cons_append, ← get_of_route found] at small
              obtain ⟨exact, small⟩ := small.add ahead
              have kept := kept.add index kind shard update
              rw [exact] at kept
              obtain ⟨after, runs', kept', small', carries⟩ :=
                @ih ((lifetimes crates path).next runtime (.add name kind shard update)) _
                  kept (ahead.add index kind shard update) small later stays'
                  (by simp only [Machine.next, lifetimes, step, runs, found, exact])
              have carried := carries.add ahead index kind shard update
              rw [get_of_route found] at carried
              exact ⟨after, runs', kept', small', carried⟩
      | flush today env =>
          have here := occurs today env rfl
          obtain ⟨exact, small⟩ := small.flush
          have goes : (stats.flushOn crates runtime.disk env today).1 = _ :=
            kept.history_flushOn few runtime.disk env here
          have kept' := kept.flushOn crates few runtime.disk env here
          rw [exact] at goes
          rw [goes] at kept'
          have next : ((lifetimes crates path).next runtime (.flush today env)).process = some
              ⟨routes, { stats with history := stats.settled today }⟩ := by
            rw [next_flush runs, goes]
          obtain ⟨after, runs', kept', small', carries⟩ :=
            ih kept' (ahead_settled stats today) small later stays' next
          exact ⟨after, runs', kept', small', carries.flush env⟩
      | «open» routes' env => exact absurd List.mem_cons_self (stays routes' env)

/-- A flush that returns `Ok` writes what the process started with and what it has gained. -/
theorem file_flush (documented : crates.Documented) (few : dates.card ≤ keepDays)
    {stats : Stats routes} (kept : Kept path dates stats) (ahead : stats.Ahead)
    {events : List Event} {today : Str} {env : Env}
    (small : Small stats (events ++ [.flush today env]))
    (dated : ∀ event ∈ events, Dated dates event)
    (stays : ∀ routes env, .open routes env ∉ events)
    (runs : runtime.process = some ⟨routes, stats⟩) (occurs : today ∈ dates)
    (written : (lifetimes crates path).outputs ((lifetimes crates path).run runtime events)
      (.flush today env) = [.ok ()]) :
    ∃ data days,
      ((lifetimes crates path).run runtime (events ++ [.flush today env])).disk path =
          some data ∧
        crates.fromSlice data = .ok days ∧
        ∀ date route kind field, (days.stored date route kind).get field =
          (stats.history.days.stored date route kind).get field +
            stats.gain (some date) route kind field (events ++ [.flush today env]) := by
  obtain ⟨middle, atFlush, kept', last, -⟩ :=
    carries_run crates few kept ahead small dated stays runs
  have datedLast : ∀ event ∈ events ++ [.flush today env], Dated dates event := by
    intro event member
    rcases List.mem_append.mp member with earlier | last
    · exact dated event earlier
    · rw [List.mem_singleton.mp last]
      rintro _ _ ⟨⟩
      exact occurs
  rw [← List.append_nil (events ++ _)] at small
  obtain ⟨after, afterFlush, -, -, carries⟩ := carries_run crates few kept ahead small datedLast
    (by simpa using stays) runs
  rw [outputs_flush atFlush, List.cons.injEq] at written
  obtain ⟨data, file, content⟩ := kept'.written documented few occurs written.1
  have flushed : (lifetimes crates path).run runtime (events ++ [.flush today env]) =
      (lifetimes crates path).next ((lifetimes crates path).run runtime events)
        (.flush today env) := (lifetimes crates path).run_append runtime events _
  rw [flushed, next_flush atFlush, kept'.history_flushOn few _ env occurs] at afterFlush
  obtain rfl : { middle with history := middle.settledU64 today } = after := by
    simpa using afterFlush
  refine ⟨data, _, ?_, content, ?_⟩
  · rw [flushed, next_flush atFlush]
    exact file
  · intro date route kind field
    exact carries.stored date route kind field

variable (crates path) in
/-- An event that is not a flush which returns `Ok`. -/
def Unwritten (runtime : Runtime) (event : Event) : Prop :=
  ∀ today env, event = .flush today env →
    (lifetimes crates path).outputs runtime event ≠ [.ok ()]

/-- Only a flush that returns `Ok` changes the file. -/
theorem Unwritten.disk {event : Event} (unwritten : Unwritten crates path runtime event) :
    ((lifetimes crates path).next runtime event).disk = runtime.disk := by
  cases event with
  | add name kind shard update =>
      cases runs : runtime.process with
      | none => simp only [Machine.next, lifetimes, step, runs]
      | some process =>
          cases found : route process.routes name with
          | none => simp only [Machine.next, lifetimes, step, runs, found]
          | some index => simp only [Machine.next, lifetimes, step, runs, found]
  | flush today env =>
      cases runs : runtime.process with
      | none => simp only [Machine.next, lifetimes, step, runs]
      | some process =>
          have failed := unwritten today env rfl
          rw [outputs_flush runs] at failed
          rw [next_flush runs]
          exact flushOn_error (fun ok => failed (by rw [ok]))
  | «open» routes env =>
      cases opened : Stats.open crates routes (some path) runtime.disk env with
      | error e => simp only [Machine.next, lifetimes, step, opened]
      | ok stats => simp only [Machine.next, lifetimes, step, opened]

end Next

theorem sound_run (documented : crates.Documented) {path : Str} {dates : Finset Str}
    (few : dates.card ≤ keepDays) {runtime : Runtime} (sound : Sound crates path dates runtime)
    {events : List Event} (dated : ∀ event ∈ events, Dated dates event) :
    Sound crates path dates ((lifetimes crates path).run runtime events) := by
  refine (lifetimes crates path).run_invariant_along (Sound crates path dates)
    (fun _ _ here sound => sound.next documented few here) sound ?_
  rintro earlier event after rfl
  exact dated event (by simp)

/-- The history survives failed writes and restarts, for every order of additions, flushes
and starts on one file, while few dates occur and the sums of a process fit into 64 bits.
After a flush that returns `Ok`, the file has what it had when the process started and what
has been added since, each amount under the date of the first flush after it.  Until the
next flush that returns `Ok`, every start goes on from there, so that it loses what was
added later and nothing else. -/
theorem history_persists (documented : crates.Documented) {path : Str} {dates : Finset Str}
    (few : dates.card ≤ keepDays) {disk : Disk} (old : (held crates path disk).keys ⊆ dates)
    {before during : List Event} {env env' : Env} {today : Str}
    (dated : ∀ event ∈ before ++ during, Dated dates event) (occurs : today ∈ dates)
    (stays : ∀ routes env, .open routes env ∉ during)
    (counters : ∀ route kind field, added routes route kind field during < 2 ^ 64)
    (entries : ∀ date route kind field,
      ((held crates path ((lifetimes crates path).run ⟨disk, none⟩ before).disk).stored
          date route kind).get field +
        booked routes (some date) route kind field (during ++ [.flush today env']) < 2 ^ 64)
    (started : (lifetimes crates path).outputs
      ((lifetimes crates path).run ⟨disk, none⟩ before) (.open routes env) = [.ok ()])
    (written : (lifetimes crates path).outputs
      ((lifetimes crates path).run ⟨disk, none⟩ (before ++ .open routes env :: during))
      (.flush today env') = [.ok ()]) :
    let first := (lifetimes crates path).run ⟨disk, none⟩ before
    let last := (lifetimes crates path).run ⟨disk, none⟩
      (before ++ .open routes env :: during ++ [.flush today env'])
    ∃ data days, last.disk path = some data ∧ crates.fromSlice data = .ok days ∧
      (∀ date route kind field, (days.stored date route kind).get field =
        ((held crates path first.disk).stored date route kind).get field +
          booked routes (some date) route kind field (during ++ [.flush today env'])) ∧
      ∀ later, (lifetimes crates path).Along (Unwritten crates path) last later →
        ∀ routes' env'', env''.readError = none →
          ((lifetimes crates path).next ((lifetimes crates path).run last later)
            (.open routes' env'')).process =
              some ⟨routes', .fresh routes' (some path) env''.now days⟩ := by
  intro first last
  have sound : Sound crates path dates first :=
    sound_run documented few ⟨old, fun _ none => by cases none⟩
      (fun event member => dated event (List.mem_append_left _ member))
  obtain ⟨stats, opened⟩ := open_of_outputs started
  have fresh := eq_fresh_of_open opened
  have kept : Kept path dates stats :=
    fresh ▸ .fresh path env.now (fits_held documented path first.disk) sound.file
  have ahead : stats.Ahead := by
    rw [fresh]
    intro pair field
    simp [Stats.fresh]
  have small : Small stats (during ++ [.flush today env']) := by
    rw [fresh]
    refine .fresh (fun route kind field => ?_) entries
    rw [added_append_flush]
    exact counters route kind field
  have start := congrArg Runtime.process (next_open opened)
  rw [Machine.run_append, Machine.run_cons] at written
  obtain ⟨data, days, file, content, stored⟩ := file_flush documented few kept ahead small
    (fun event member => dated event (List.mem_append_right _ member)) stays start occurs written
  have ends : last = (lifetimes crates path).run
      ((lifetimes crates path).next first (.open routes env)) (during ++ [.flush today env']) := by
    rw [← Machine.run_cons, ← List.cons_append, ← Machine.run_append, ← List.append_assoc]
  refine ⟨data, days, by rw [ends]; exact file, content, ?_, ?_⟩
  · intro date route kind field
    rw [stored, gain, fresh, unflushed_fresh, ite_self, add_zero]
    rfl
  · intro later unwritten routes' env'' readable
    have same : ((lifetimes crates path).run last later).disk = last.disk :=
      (lifetimes crates path).run_invariant_along (fun runtime => runtime.disk = last.disk)
        (fun _ _ here same => here.disk.trans same) rfl unwritten
    rw [← ends, ← same] at file
    rw [next_open (open_of_file file content readable)]

/-- A request is counted on the day of the flush that failed, and written on the next day. -/
theorem history_persists_failed_write :
    let path := "stats.json".toList
    let full := { Reference.env with writeError := some "disk full".toList }
    let request := Event.add "a".toList .api ⟨0, by decide⟩ .addRequest
    let last := (lifetimes Reference.statsCrates path).run ⟨fun _ => none, none⟩
      [.open ["a".toList] Reference.env, request, .flush "2026-01-02".toList full,
        .flush "2026-01-03".toList Reference.env]
    ∃ data days, last.disk path = some data ∧ Reference.statsCrates.fromSlice data = .ok days ∧
      (days.stored "2026-01-02".toList "a".toList "api".toList).get .requests = 1 ∧
      (days.stored "2026-01-03".toList "a".toList "api".toList).get .requests = 0 := by
  intro path full request last
  have dated : ∀ event ∈ [] ++ [request, .flush "2026-01-02".toList full],
      Dated {"2026-01-02".toList, "2026-01-03".toList} event := by
    simp [Dated, request]
  -- One request is the whole traffic.
  have one (counts : Prop) [Decidable counts] (field : Field) :
      (if counts then Update.addRequest.amount field else 0) + 0 ≤ 1 := by
    split
    · cases field <;> decide
    · decide
  have counters (route kind : Str) (field : Field) : added ["a".toList] route kind field
      [request, .flush "2026-01-02".toList full] ≤ 1 := by
    simp only [request, added]
    exact one _ field
  have entries (date route kind : Str) (field : Field) :
      ((held Reference.statsCrates path fun _ => none).stored date route kind).get field +
        booked ["a".toList] (some date) route kind field
          ([request, .flush "2026-01-02".toList full] ++
            [.flush "2026-01-03".toList Reference.env]) < 2 ^ 64 := by
    have none : ((held Reference.statsCrates path fun _ => none).stored date route kind).get
        field = 0 := Totals.get_zero field
    simp only [none, request, List.cons_append, List.nil_append, booked, Nat.zero_add]
    exact (one _ field).trans_lt (by decide)
  obtain ⟨data, days, file, content, stored, -⟩ :=
    @history_persists ["a".toList] Reference.statsCrates Reference.statsDocumented path _
      (by decide) (fun _ => none) (by decide) [] _ Reference.env Reference.env
      "2026-01-03".toList dated (by decide) (by simp [request])
      (fun route kind field => (counters route kind field).trans_lt (by decide)) entries rfl rfl
  refine ⟨data, days, file, content, ?_, ?_⟩
  · rw [stored]
    decide
  · rw [stored]
    decide

/-- The sums of the file are not those of the traffic once they reach `2 ^ 64`: one more
request than can be counted leaves none. -/
theorem history_overflows :
    let path := "stats.json".toList
    let disk := Function.update (fun _ => none) path (some Reference.mostRequestsJson)
    let events := [.open ["a".toList] Reference.env,
      .add "a".toList .api ⟨0, by decide⟩ .addRequest, .flush "2026-01-02".toList Reference.env]
    let last := (lifetimes Reference.statsCrates path).run ⟨disk, none⟩ events
    (lifetimes Reference.statsCrates path).trace ⟨disk, none⟩ events = [.ok (), .ok ()] ∧
      ((held Reference.statsCrates path disk).stored "2026-01-02".toList "a".toList
        "api".toList).get .requests = 2 ^ 64 - 1 ∧
      booked ["a".toList] (some "2026-01-02".toList) "a".toList "api".toList .requests
        events.tail = 1 ∧
      ((held Reference.statsCrates path last.disk).stored "2026-01-02".toList "a".toList
        "api".toList).get .requests = 0 := by
  decide +kernel

end Proxemby.Stats
