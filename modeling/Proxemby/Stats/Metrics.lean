import Proxemby.Lib.Exposition
import Proxemby.Lib.Slots
import Proxemby.Stats.Concurrent

/-!
# Counters for Prometheus

`METRICS` and `prometheus` of `src/stats.rs`.  A scrape takes no lock: it reads one shard after
another while threads add to the counters, calls flush and report, and other scrapes go on.
-/

namespace Proxemby.Stats

open Text

/-- A metric: the loads of its `value`, and what it makes of them. -/
structure Metric where
  name : Str
  metricType : Str
  help : Str
  loads : List Load
  value : Reading → Nat

def metrics : List Metric :=
  [{ name := "proxemby_requests_total".toList
     metricType := "counter".toList
     help := "Requests handled.".toList
     loads := Counters.totalsLoads
     value := fun reading => reading.totals.requests },
   { name := "proxemby_response_bytes_total".toList
     metricType := "counter".toList
     help := "Bytes sent to clients.".toList
     loads := Counters.totalsLoads
     value := fun reading => reading.totals.bytesOut },
   { name := "proxemby_request_bytes_total".toList
     metricType := "counter".toList
     help := "Bytes received from clients.".toList
     loads := Counters.totalsLoads
     value := fun reading => reading.totals.bytesIn },
   { name := "proxemby_active_streams".toList
     metricType := "gauge".toList
     help := "Responses currently streaming to clients.".toList
     loads := Counters.activeLoads
     value := fun reading => (max reading.active 0).toNat }]

/-- The value of a metric when no thread comes in between. -/
def Metric.read (metric : Metric) (counters : Counters) : Nat :=
  metric.value (metric.loads.foldl counters.load ⟨.zero, 0⟩)

section Routes

variable (routes : List Str)

/-- A metric of a route and kind. -/
abbrev Key := Fin metrics.length × (Fin routes.length × Kind)

/-- What `prometheus` writes: a text that is always the same, or the value of a metric. -/
inductive Entry where
  | fixed (text : Str)
  | sample (key : Key routes)

variable {routes}

def Entry.key? : Entry routes → Option (Key routes)
  | .fixed _ => none
  | .sample key => some key

/-- A line of the output, without its end. -/
def Entry.text (values : Key routes → Nat) : Entry routes → Str
  | .fixed text => text
  | .sample key =>
      (metrics.get key.1).name ++ "\x7broute=\"".toList ++ routes.get key.2.1 ++
        "\",kind=\"".toList ++ key.2.2.name ++ "\"\x7d ".toList ++ Nat.toDigits 10 (values key)

variable (routes) in
def metricEntries (index : Fin metrics.length) : List (Entry routes) :=
  let metric := metrics.get index
  .fixed ("# HELP ".toList ++ metric.name ++ ' ' :: metric.help) ::
    .fixed ("# TYPE ".toList ++ metric.name ++ ' ' :: metric.metricType) ::
      (pairs routes).map fun pair => .sample (index, pair)

/-- The metric with the version, which is not counted. -/
def buildInfo : List Str :=
  ["# HELP proxemby_build_info Build information.".toList,
   "# TYPE proxemby_build_info gauge".toList,
   "proxemby_build_info\x7bversion=\"".toList ++ Stats.version ++ "\"\x7d 1".toList]

variable (routes) in
def entries : List (Entry routes) :=
  (List.finRange metrics.length).flatMap (metricEntries routes) ++ buildInfo.map .fixed

/-- All lines, with the values that were read. -/
def exposition (values : Key routes → Nat) : Str :=
  terminated '\n' ((entries routes).map (Entry.text values))

/-- `prometheus` when no thread comes in between. -/
def prometheus (stats : Stats routes) : Str :=
  exposition fun key => (metrics.get key.1).read (stats.counters key.2.1 key.2.2)

/-! ## What the output says -/

/-- The series of a metric for a route and kind. -/
def series (key : Key routes) : Exposition.Series where
  metric := (metrics.get key.1).name
  labels := [("route".toList, routes.get key.2.1), ("kind".toList, key.2.2.name)]

def buildInfoSeries : Exposition.Series where
  metric := "proxemby_build_info".toList
  labels := [("version".toList, Stats.version)]

/-- What one metric is said to be. -/
def exposedMetric (values : Key routes → Nat) (index : Fin metrics.length) :
    List Exposition.Line :=
  let metric := metrics.get index
  .help metric.name metric.help :: .type metric.name metric.metricType ::
    (pairs routes).map fun pair => .sample (series (index, pair)) (values (index, pair))

/-- What the output says: each metric with its help, its type, and one value for each route
and kind, and the version. -/
def exposed (values : Key routes → Nat) : List Exposition.Line :=
  (List.finRange metrics.length).flatMap (exposedMetric values) ++
    [.help "proxemby_build_info".toList "Build information.".toList,
     .type "proxemby_build_info".toList "gauge".toList,
     .sample buildInfoSeries 1]

theorem metrics_wellFormed : ∀ metric ∈ metrics, Exposition.IsName metric.name ∧
    '\n' ∉ metric.help ∧ metric.metricType ∈ Exposition.types := by
  decide

theorem plain_name (kind : Kind) : Exposition.IsPlain kind.name := by
  cases kind <;> decide

theorem text_sample {values : Key routes → Nat}
    (plain : ∀ name ∈ routes, Exposition.IsPlain name) (key : Key routes) :
    (Entry.sample key).text values = (Exposition.Line.sample (series key) (values key)).text := by
  have route := plain (routes.get key.2.1) (List.get_mem _ _)
  have kind := plain_name key.2.2
  simp [Entry.text, Exposition.text_sample, series, Exposition.labelsText, Exposition.labelText,
    -List.get_eq_getElem, route.flatMap_escape, kind.flatMap_escape]

theorem exposition_eq_write (plain : ∀ name ∈ routes, Exposition.IsPlain name)
    (values : Key routes → Nat) : exposition values = Exposition.write (exposed values) := by
  have metric (index : Fin metrics.length) :
      (metricEntries routes index).map (Entry.text values) =
        (exposedMetric values index).map Exposition.Line.text := by
    have samples := List.map_congr_left fun pair (_ : pair ∈ pairs routes) =>
      @text_sample routes values plain (index, pair)
    rw [metricEntries, exposedMetric, List.map_cons, List.map_cons, List.map_cons, List.map_cons,
      List.map_map, List.map_map, Exposition.text_help, Exposition.text_type]
    simp only [Entry.text, List.append_assoc]
    exact congrArg _ (congrArg _ samples)
  rw [exposition, Exposition.write, entries, exposed, List.map_append, List.map_append,
    List.map_flatMap, List.map_flatMap]
  simp only [metric]
  rfl

theorem exposed_wellFormed (values : Key routes → Nat) :
    ∀ line ∈ exposed values, line.WellFormed := by
  intro line member
  rcases List.mem_append.mp member with counted | fixed
  · obtain ⟨index, -, among⟩ := List.mem_flatMap.mp counted
    obtain ⟨isName, help, type⟩ := metrics_wellFormed (metrics.get index) (List.get_mem _ _)
    rcases List.mem_cons.mp among with rfl | among
    · exact ⟨isName, help⟩
    · rcases List.mem_cons.mp among with rfl | among
      · exact ⟨isName, type⟩
      · obtain ⟨pair, -, rfl⟩ := List.mem_map.mp among
        refine ⟨isName, ?_⟩
        have labels : ∀ name ∈ ["route".toList, "kind".toList], Exposition.IsName name := by
          decide
        simpa [series] using labels
  · have build : Exposition.IsName "proxemby_build_info".toList := by decide
    simp only [List.mem_cons, List.not_mem_nil, or_false] at fixed
    rcases fixed with rfl | rfl | rfl
    · exact ⟨build, by decide⟩
    · exact ⟨build, by decide⟩
    · exact ⟨build, by decide⟩

/-- The output can be read, if no name of a route needs an escape. -/
theorem read_exposition (plain : ∀ name ∈ routes, Exposition.IsPlain name)
    (values : Key routes → Nat) :
    Exposition.read (exposition values) = some (exposed values) := by
  rw [exposition_eq_write plain]
  exact Exposition.read_write (exposed_wellFormed values)

/-! ## Series -/

variable (routes) in
/-- The metrics of all routes and kinds, in the order of the output. -/
def keys : List (Key routes) := (List.finRange metrics.length).product (pairs routes)

theorem keys_nodup : (keys routes).Nodup := (List.nodup_finRange _).product (pairs_nodup routes)

theorem filterMap_metricEntries (index : Fin metrics.length) :
    (metricEntries routes index).filterMap Entry.key? = (pairs routes).map (Prod.mk index) := by
  rw [metricEntries, List.filterMap_cons_none rfl, List.filterMap_cons_none rfl,
    List.filterMap_map]
  exact congrFun List.filterMap_eq_map' (pairs routes)

theorem filterMap_entries : (entries routes).filterMap Entry.key? = keys routes := by
  have fixed : (buildInfo.map .fixed).filterMap (@Entry.key? routes) = [] := rfl
  rw [entries, List.filterMap_append, fixed, List.append_nil, List.filterMap_flatMap, keys,
    List.product]
  exact List.flatMap_congr fun index _ => filterMap_metricEntries index

theorem series_injective (distinct : routes.Nodup) :
    Function.Injective (@series routes) := by
  have names : (metrics.map Metric.name).Nodup := by decide
  rintro ⟨index, route, kind⟩ ⟨index', route', kind'⟩ same
  simp only [series, Exposition.Series.mk.injEq, List.cons.injEq, Prod.mk.injEq, true_and,
    and_true, Kind.name_inj] at same
  obtain ⟨metric, name, rfl⟩ := same
  obtain rfl := distinct.injective_get name
  have place := (List.inj_on_of_nodup_map names) (List.get_mem _ _) (List.get_mem _ _) metric
  obtain rfl := (List.Nodup.of_map _ names).injective_get place
  rfl

/-- No series is there twice. -/
theorem series_exposed_nodup (distinct : routes.Nodup) (values : Key routes → Nat) :
    ((exposed values).filterMap Exposition.Line.series?).Nodup := by
  have metric (index : Fin metrics.length) :
      (exposedMetric values index).filterMap Exposition.Line.series? =
        ((pairs routes).map (Prod.mk index)).map series := by
    rw [exposedMetric, List.filterMap_cons_none rfl, List.filterMap_cons_none rfl,
      List.filterMap_map, List.map_map]
    exact congrFun List.filterMap_eq_map' (pairs routes)
  have counted : ((List.finRange metrics.length).flatMap (exposedMetric values)).filterMap
      Exposition.Line.series? = (keys routes).map series := by
    rw [List.filterMap_flatMap, keys, List.product, List.map_flatMap]
    exact List.flatMap_congr fun index _ => metric index
  rw [exposed, List.filterMap_append, counted]
  refine List.Nodup.append (keys_nodup.map (series_injective distinct)) (by decide) ?_
  intro series member fixed
  obtain ⟨key, -, rfl⟩ := List.mem_map.mp member
  have other : ∀ metric ∈ metrics, metric.name ≠ "proxemby_build_info".toList := by decide
  have same : series key = buildInfoSeries := List.mem_singleton.mp fixed
  exact other _ (List.get_mem _ _) (congrArg Exposition.Series.metric same)

end Routes

end Proxemby.Stats
