import Mathlib.Algebra.BigOperators.Fin
import Proxemby.Lib.Sweep
import Proxemby.Util

/-!
# Traffic counters

The live counters of `src/stats.rs`.  Each thread adds to a shard of its own and readers
sum the shards, so the counters of a route and kind are read one after another while
others are added to.

The numbers are `u64` in the source and natural numbers here, which is the same as long as
every sum is below `2 ^ 64`.  `Proxemby.Stats.Overflow` has the arithmetic of `u64`.
-/

namespace Proxemby

inductive Kind where
  | api
  | media
  | image
  deriving DecidableEq

def Kind.name : Kind → Str
  | .api => "api".toList
  | .media => "media".toList
  | .image => "image".toList

def kinds : List Kind := [.api, .media, .image]

theorem Kind.name_inj {kind other : Kind} : kind.name = other.name ↔ kind = other := by
  cases kind <;> cases other <;> decide

/-- Number of counter shards. -/
def shardCount : Nat := 16

/-- The fields are `u64`, so a value stands for totals of the source only if it `Fits`. -/
structure Totals where
  requests : Nat
  bytesOut : Nat
  bytesIn : Nat
  deriving DecidableEq

/-- The counters that are summed. -/
inductive Field where
  | requests
  | bytesOut
  | bytesIn
  deriving DecidableEq

namespace Totals

def get (totals : Totals) : Field → Nat
  | .requests => totals.requests
  | .bytesOut => totals.bytesOut
  | .bytesIn => totals.bytesIn

theorem ext_get {left right : Totals} (same : ∀ field, left.get field = right.get field) :
    left = right := by
  obtain ⟨requests, bytesOut, bytesIn⟩ := left
  exact congr (congr (congrArg Totals.mk (same .requests)) (same .bytesOut)) (same .bytesIn)

/-- No traffic. -/
def zero : Totals := ⟨0, 0, 0⟩

/-- All fields are numbers of 64 bits. -/
def Fits (totals : Totals) : Prop := ∀ field, totals.get field < 2 ^ 64

def add (totals other : Totals) : Totals where
  requests := totals.requests + other.requests
  bytesOut := totals.bytesOut + other.bytesOut
  bytesIn := totals.bytesIn + other.bytesIn

/-- Subtraction that stops at zero. -/
def minus (totals other : Totals) : Totals where
  requests := totals.requests - other.requests
  bytesOut := totals.bytesOut - other.bytesOut
  bytesIn := totals.bytesIn - other.bytesIn

@[simp] theorem get_zero (field : Field) : zero.get field = 0 := by cases field <;> rfl

theorem fits_zero : zero.Fits := by
  intro field
  rw [get_zero]
  decide

@[simp] theorem get_add (totals other : Totals) (field : Field) :
    (totals.add other).get field = totals.get field + other.get field := by
  cases field <;> rfl

@[simp] theorem get_minus (totals other : Totals) (field : Field) :
    (totals.minus other).get field = totals.get field - other.get field := by
  cases field <;> rfl

end Totals

/-- One shard.  The number of active streams can go negative when a stream starts and
ends on different threads. -/
structure Shard where
  requests : Nat
  bytesOut : Nat
  bytesIn : Nat
  active : Int
  deriving DecidableEq

/-- An atomic update of a shard. -/
inductive Update where
  | addRequest
  | addBytesOut (bytes : Nat)
  | addBytesIn (bytes : Nat)
  | streamStarted
  | streamFinished
  deriving DecidableEq

/-- What an update adds to a counter. -/
def Update.amount : Update → Field → Nat
  | .addRequest, .requests => 1
  | .addBytesOut bytes, .bytesOut => bytes
  | .addBytesIn bytes, .bytesIn => bytes
  | _, _ => 0

/-- What an update does to the number of active streams. -/
def Update.flow : Update → Int
  | .streamStarted => 1
  | .streamFinished => -1
  | _ => 0

namespace Shard

def zero : Shard := ⟨0, 0, 0, 0⟩

def get (shard : Shard) : Field → Nat
  | .requests => shard.requests
  | .bytesOut => shard.bytesOut
  | .bytesIn => shard.bytesIn

def update (shard : Shard) : Update → Shard
  | .addRequest => { shard with requests := shard.requests + 1 }
  | .addBytesOut bytes => { shard with bytesOut := shard.bytesOut + bytes }
  | .addBytesIn bytes => { shard with bytesIn := shard.bytesIn + bytes }
  | .streamStarted => { shard with active := shard.active + 1 }
  | .streamFinished => { shard with active := shard.active - 1 }

@[simp] theorem get_zero (field : Field) : zero.get field = 0 := by cases field <;> rfl

@[simp] theorem get_update (shard : Shard) (update : Update) (field : Field) :
    (shard.update update).get field = shard.get field + update.amount field := by
  cases update <;> cases field <;> rfl

@[simp] theorem active_update (shard : Shard) (update : Update) :
    (shard.update update).active = shard.active + update.flow := by
  cases update <;> simp [Shard.update, Update.flow, sub_eq_add_neg]

end Shard

/-- Live counters for one route and kind. -/
abbrev Counters := Fin shardCount → Shard

/-- One atomic load. -/
inductive Load where
  | total (shard : Fin shardCount) (field : Field)
  | active (shard : Fin shardCount)
  deriving DecidableEq

/-- What has been summed up so far. -/
structure Reading where
  totals : Totals
  active : Int
  deriving DecidableEq

namespace Counters

def zero : Counters := fun _ => .zero

/-- One addition of `totals` or `active`. -/
def load (counters : Counters) (reading : Reading) : Load → Reading
  | .total shard .requests => { reading with
      totals.requests := reading.totals.requests + (counters shard).requests }
  | .total shard .bytesOut => { reading with
      totals.bytesOut := reading.totals.bytesOut + (counters shard).bytesOut }
  | .total shard .bytesIn => { reading with
      totals.bytesIn := reading.totals.bytesIn + (counters shard).bytesIn }
  | .active shard => { reading with active := reading.active + (counters shard).active }

/-- The loads of `totals`, in its order. -/
def totalsLoads : List Load :=
  (List.finRange shardCount).flatMap fun shard =>
    [.total shard .requests, .total shard .bytesOut, .total shard .bytesIn]

/-- The loads of `active`, in its order. -/
def activeLoads : List Load := (List.finRange shardCount).map .active

/-- The loads of a report for a route and kind. -/
def loads : List Load := totalsLoads ++ activeLoads

theorem loads_nodup : loads.Nodup := by decide +kernel

theorem mem_loads (load : Load) : load ∈ loads := by
  cases load with
  | total shard field => cases field <;> simp [loads, totalsLoads]
  | active shard => simp [loads, activeLoads]

theorem mem_totalsLoads (shard : Fin shardCount) (field : Field) :
    .total shard field ∈ totalsLoads := by
  cases field <;> simp [totalsLoads]

theorem totalsLoads_nodup : totalsLoads.Nodup := loads_nodup.of_append_left

/-- A whole reading, when nothing happens in between. -/
def read (counters : Counters) : Reading := loads.foldl counters.load ⟨.zero, 0⟩

/-- `totals` when nothing happens in between. -/
def totals (counters : Counters) : Totals := (totalsLoads.foldl counters.load ⟨.zero, 0⟩).totals

/-! ## What a reading adds up to -/

/-- The shards of one counter. -/
def column (counters : Counters) (field : Field) : Fin shardCount → Nat :=
  fun shard => (counters shard).get field

/-- The shards that some loads read for a counter. -/
def shardsOf (field : Field) (loads : List Load) : List (Fin shardCount) :=
  loads.filterMap fun
    | .total shard other => if other = field then some shard else none
    | .active _ => none

theorem mem_shardsOf {field : Field} {loads : List Load} {shard : Fin shardCount} :
    shard ∈ shardsOf field loads ↔ .total shard field ∈ loads := by
  rw [shardsOf, List.mem_filterMap]
  constructor
  · rintro ⟨load, member, same⟩
    cases load with
    | active other => cases same
    | total other field' =>
        simp only [Option.ite_none_right_eq_some, Option.some.injEq] at same
        obtain ⟨rfl, rfl⟩ := same
        exact member
  · intro member
    exact ⟨_, member, if_pos rfl⟩

/-- A load reads the next shard of a counter, or does not touch the counter. -/
theorem load_cases (counters : Counters) (reading : Reading) (field : Field) (load : Load)
    (loads : List Load) :
    (∃ shard, load = .total shard field ∧
      shardsOf field (load :: loads) = shard :: shardsOf field loads ∧
      (counters.load reading load).totals.get field =
        reading.totals.get field + counters.column field shard) ∨
      (shardsOf field (load :: loads) = shardsOf field loads ∧
        (counters.load reading load).totals.get field = reading.totals.get field) := by
  cases load with
  | active shard => exact .inr ⟨rfl, rfl⟩
  | total shard other =>
      by_cases same : other = field
      · subst same
        refine .inl ⟨shard, rfl, by simp [shardsOf], ?_⟩
        cases other <;> rfl
      · refine .inr ⟨by simp [shardsOf, same], ?_⟩
        cases other <;> cases field <;> first | rfl | exact absurd rfl same

/-- One load of a reading that others disturb. -/
theorem reads_load {counters : Counters} {reading : Reading} {field : Field} {before : Nat}
    {load : Load} {loads : List Load} (nodup : (load :: loads).Nodup)
    (reads : Sweep.Reads (counters.column field) before (reading.totals.get field)
      (shardsOf field (load :: loads))) :
    Sweep.Reads (counters.column field) before ((counters.load reading load).totals.get field)
      (shardsOf field loads) := by
  rcases counters.load_cases reading field load loads with
    ⟨shard, rfl, left, sum⟩ | ⟨left, sum⟩
  · rw [left] at reads
    rw [sum]
    exact reads.load (mt mem_shardsOf.mp (List.nodup_cons.mp nodup).1)
  · rwa [sum, ← left]

/-- One load of a reading that nothing disturbs. -/
theorem partial_load {counters : Counters} {reading : Reading} {field : Field}
    {load : Load} {loads : List Load} (nodup : (load :: loads).Nodup)
    (reads : Sweep.Partial (counters.column field) (reading.totals.get field)
      (shardsOf field (load :: loads))) :
    Sweep.Partial (counters.column field) ((counters.load reading load).totals.get field)
      (shardsOf field loads) := by
  rcases counters.load_cases reading field load loads with
    ⟨shard, rfl, left, sum⟩ | ⟨left, sum⟩
  · rw [left] at reads
    rw [sum]
    exact reads.load (mt mem_shardsOf.mp (List.nodup_cons.mp nodup).1)
  · rwa [sum, ← left]

/-- A reading that nothing disturbs, from the start or from the middle. -/
theorem partial_foldl {counters : Counters} {field : Field} {loads : List Load}
    (nodup : loads.Nodup) {reading : Reading}
    (reads : Sweep.Partial (counters.column field) (reading.totals.get field)
      (shardsOf field loads)) :
    (loads.foldl counters.load reading).totals.get field =
      ∑ shard, counters.column field shard := by
  induction loads generalizing reading with
  | nil => exact reads.finish
  | cons load loads ih => exact ih (List.nodup_cons.mp nodup).2 (partial_load nodup reads)

/-- Without disturbance, `totals` is the sum of the shards. -/
theorem get_totals (counters : Counters) (field : Field) :
    counters.totals.get field = ∑ shard, counters.column field shard := by
  apply partial_foldl totalsLoads_nodup
  rw [Totals.get_zero]
  exact .start fun shard => mem_shardsOf.mpr (mem_totalsLoads shard field)

/-- The totals of a whole reading are those of `totals`. -/
theorem get_read (counters : Counters) (field : Field) :
    counters.read.totals.get field = ∑ shard, counters.column field shard := by
  apply partial_foldl loads_nodup
  rw [Totals.get_zero]
  exact .start fun shard => mem_shardsOf.mpr (mem_loads _)

end Counters

end Proxemby
