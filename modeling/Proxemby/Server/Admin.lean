import Proxemby.Http
import Proxemby.Lib.HttpMessage
import Proxemby.Server.Lifecycle
import Proxemby.Stats.Metrics
import Proxemby.Stats.Overflow

/-!
# The admin listener and its client

`admin_response` of `src/server/admin.rs`, and `proxemby stats`: `fetch_report` and
`admin_connect_addr` of `src/stats.rs` and `show_stats` of `src/main.rs`.  The listener leaves
the octets of the connection to its HTTP library, while the client cuts the answer out of them by
hand.
-/

namespace Proxemby.Admin

open Text HttpMessage

/-- What other crates do for the listener and for its client. -/
structure AdminCrates where
  toVecPretty : Report → Except Str Bytes
  fromSlice : Bytes → Except Str Report
  /-- What is sent on a connection with these octets, by a server with this service. -/
  serveConnection : (Request → Response) → Bytes → Option Bytes

/-! ## The listener -/

/-- An answer with data. -/
def served (data : Bytes) (contentType : String) : Response where
  status := 200
  headers := HeaderMap.empty.insert "content-type".toList (.fromStatic contentType)
  body := .full data

/-- `admin_response`, with what `report` and `prometheus` return. -/
def adminResponse (crates : AdminCrates) (report : Report) (prometheus : Str) (req : Request) :
    Response :=
  if req.method ≠ .get ∧ req.method ≠ .head then textResponse 405 "method not allowed"
  else if req.path = "/stats".toList then
    -- `unwrap_or_default`
    served ((crates.toVecPretty report).toOption.getD []) "application/json"
  else if req.path = "/metrics".toList then
    served (Utf8.encode prometheus) "text/plain; version=0.0.4; charset=utf-8"
  else textResponse 404 "404 page not found"

/-- What `serve_admin` sends on a connection. -/
def serveAdmin (crates : AdminCrates) (report : Report) (prometheus : Str) (octets : Bytes) :
    Option Bytes :=
  crates.serveConnection (adminResponse crates report prometheus) octets

/-! ## The client -/

def adminConnectAddr (listen : Str) : Str :=
  match stripPrefix ":".toList listen with
  | some port => "127.0.0.1:".toList ++ port
  | none =>
      match stripPrefix "0.0.0.0:".toList listen with
      | some port => "127.0.0.1:".toList ++ port
      | none =>
          match stripPrefix "[::]:".toList listen with
          | some port => "[::1]:".toList ++ port
          | none => listen

def statsRequest : Bytes :=
  Utf8.encode "GET /stats HTTP/1.1\r\nHost: localhost\r\nConnection: close\r\n\r\n".toList

/-- What the system calls of the client return. -/
structure Calls where
  connect : Except Str Unit
  write : Except Str Unit
  read : Except Str Bytes

def fetchReport (crates : AdminCrates) (addr : Str) (calls : Calls) : Except Str Report :=
  match calls.connect, calls.write, calls.read with
  | .error e, _, _ =>
      .error ("connect to ".toList ++ addr ++ ": ".toList ++ e ++
        " (is proxemby running with stats enabled?)".toList)
  | .ok (), .error e, _ => .error ("request stats: ".toList ++ e)
  | .ok (), .ok (), .error e => .error ("read stats: ".toList ++ e)
  | .ok (), .ok (), .ok response =>
      match splitOnceText blank response with
      | none => .error "invalid stats response".toList
      | some (head, body) =>
          let head := Utf8.decodeLossy head
          if "HTTP/1.1 200".toList.isPrefixOf head then
            (crates.fromSlice body).mapError ("invalid stats: ".toList ++ ·)
          else .error ("stats request failed: ".toList ++ firstLine head)

/-- `show_stats`: the output, or what goes to the error output of a run that fails. -/
def showStats (crates : AdminCrates) (renderTable : Report → Str) (cfg : Loading.Config)
    (calls : Calls) : Except Str Str :=
  if !cfg.statsEnable then
    .error "stats are disabled: set [stats] enable = true in the config".toList
  else if cfg.statsAddr.isEmpty then
    .error "the stats listener is disabled: set [stats] addr in the config".toList
  else (fetchReport crates (adminConnectAddr cfg.statsAddr) calls).map renderTable

/-! ## The client sees what the listener sends -/

/-- The other crates do what their documentation says: reports can be read again, and the server
hands the request of the client to its service and sends what that answers. -/
structure AdminCrates.Documented (crates : AdminCrates) : Prop where
  report : ∀ report : Report, report.Fits →
    ∃ data, crates.toVecPretty report = .ok data ∧ crates.fromSlice data = .ok report
  request : ∃ req : Request, req.method = .get ∧ req.path = "/stats".toList ∧
    ∀ service data, (service req).body = .full data →
      ∃ octets reason, crates.serveConnection service statsRequest = some octets ∧
        Framed (service req).status reason data octets

/-- The client reads the data of a good answer, and shows the first line of any other. -/
theorem fetchReport_framed (crates : AdminCrates) (addr : Str) {status : Nat} {reason : Str}
    {body octets : Bytes} (framed : Framed status reason body octets) (code : status < 1000) :
    fetchReport crates addr ⟨.ok (), .ok (), .ok octets⟩ =
      if status = 200 then (crates.fromSlice body).mapError ("invalid stats: ".toList ++ ·)
      else .error ("stats request failed: ".toList ++ statusLine status reason) := by
  obtain ⟨head, rest, cut, decoded, first⟩ := framed.split
  simp only [fetchReport, cut, decoded, isPrefixOf_statusLine code, first, decide_eq_true_iff]

/-! ## Where the client connects -/

theorem fst_splitOnce_congr {sep : Char} (text : Str) (rest rest' : Str) :
    (splitOnce sep (text ++ sep :: rest)).map Prod.fst =
      (splitOnce sep (text ++ sep :: rest')).map Prod.fst := by
  induction text with
  | nil => simp [splitOnce]
  | cons c text ih =>
      simp only [List.cons_append, splitOnce]
      split
      · rfl
      · simpa [Option.map_map, Function.comp_def] using congrArg (Option.map (c :: ·)) ih

/-- The part behind the last separator does not depend on what is in front of one. -/
theorem snd_rsplitOnce_congr {sep : Char} (front front' port : Str) :
    (rsplitOnce sep (front ++ sep :: port)).map Prod.snd =
      (rsplitOnce sep (front' ++ sep :: port)).map Prod.snd := by
  have same := @fst_splitOnce_congr sep port.reverse front.reverse front'.reverse
  simpa [rsplitOnce, Option.map_map, Function.comp_def] using
    congrArg (Option.map List.reverse) same

/-- The client connects to the port that the listener is bound to. -/
theorem port_adminConnectAddr (listen : Str) :
    (rsplitOnce ':' (adminConnectAddr listen)).map Prod.snd =
      (rsplitOnce ':' listen).map Prod.snd := by
  rw [adminConnectAddr]
  split
  · next port wildcard =>
      obtain rfl := stripPrefix_eq_some.mp wildcard
      exact snd_rsplitOnce_congr "127.0.0.1".toList [] port
  · split
    · next port wildcard =>
        obtain rfl := stripPrefix_eq_some.mp wildcard
        exact snd_rsplitOnce_congr "127.0.0.1".toList "0.0.0.0".toList port
    · split
      · next port wildcard =>
          obtain rfl := stripPrefix_eq_some.mp wildcard
          exact snd_rsplitOnce_congr "[::1]".toList "[::]".toList port
      · rfl

section Idle

open Reference

def kindCodec : Codec KindReport :=
  let totals := Codec.totals
  (totals.pair (totals.pair (totals.pair (Codec.nat.only (· < 2 ^ 64))))).ofInverse
    (fun report => (report.today, report.month, report.sinceStart, report.active))
    (fun parts => ⟨parts.1, parts.2.1, parts.2.2.1, parts.2.2.2⟩) (fun _ => rfl) (fun _ => rfl)

def routeCodec : Codec RouteReport :=
  let kind := kindCodec
  (Codec.str.pair (kind.pair (kind.pair kind))).ofInverse
    (fun report => (report.route, report.kinds .api, report.kinds .media, report.kinds .image))
    (fun parts => ⟨parts.1, fun
      | .api => parts.2.1
      | .media => parts.2.2.1
      | .image => parts.2.2.2⟩)
    (fun report => congrArg (RouteReport.mk report.route)
      (funext fun kind => by cases kind <;> rfl))
    (fun _ => rfl)

def reportCodec : Codec Report :=
  (Codec.str.pair (Codec.str.pair (Codec.str.pair routeCodec.list))).ofInverse
    (fun report => (report.version, report.startedAt, report.today, report.routes))
    (fun parts => ⟨parts.1, parts.2.1, parts.2.2.1, parts.2.2.2⟩) (fun _ => rfl) (fun _ => rfl)

theorem valid_report {report : Report} (fits : report.Fits) : reportCodec.valid report := by
  refine ⟨trivial, trivial, trivial, ?_⟩
  intro route member
  have kind (kind : Kind) : kindCodec.valid (route.kinds kind) := by
    have fits := fits route member kind
    exact ⟨Codec.valid_totals.mpr fits.today, Codec.valid_totals.mpr fits.month,
      Codec.valid_totals.mpr fits.sinceStart, trivial, fits.active⟩
  exact ⟨trivial, kind .api, kind .media, kind .image⟩

/-- The report of a process that has just started, with the route `a`. -/
def idle : Report :=
  (Stats.fresh ["a".toList] none "2026-01-02T03:04:05.000Z".toList ∅).reportOn "2026-01-02".toList

def idleJson : Bytes :=
  let totals (name : String) := ["          \"" ++ name ++ "\": \x7b",
    "            \"requests\": 0,", "            \"bytes_out\": 0,",
    "            \"bytes_in\": 0", "          \x7d,"]
  let kind (name stop : String) := ["        \"" ++ name ++ "\": \x7b"] ++ totals "today" ++
    totals "month" ++ totals "since_start" ++ ["          \"active\": 0", "        \x7d" ++ stop]
  lines (["\x7b", "  \"version\": \"0.4.0\",",
    "  \"started_at\": \"2026-01-02T03:04:05.000Z\",", "  \"today\": \"2026-01-02\",",
    "  \"routes\": [", "    \x7b", "      \"route\": \"a\",", "      \"kinds\": \x7b"] ++
    kind "api" "," ++ kind "image" "," ++ kind "media" "" ++
    ["      \x7d", "    \x7d", "  ]", "\x7d"])

/-- The headers of the answer with this report. -/
def idleHeaders : List Bytes :=
  ["content-type: application/json", "connection: close", "content-length: 1375",
    "date: Fri, 02 Jan 2026 03:04:05 GMT"].map fun line => Utf8.encode line.toList

/-- The request of the client as the server reads it. -/
def idleRequest : Request where
  method := .get
  authority := none
  path := "/stats".toList
  query := none
  headers := ⟨[("host".toList, .fromStatic "localhost"),
    ("connection".toList, .fromStatic "close")]⟩

def adminCrates : AdminCrates where
  toVecPretty report :=
    .ok (if reportCodec.write report = reportCodec.write idle then idleJson
      else writeStrs (reportCodec.write report))
  fromSlice data :=
    if data = idleJson then .ok idle
    else
      match (readStrs data).bind reportCodec.read with
      | some (report, []) => .ok report
      | _ => .error "expected value at line 1 column 1".toList
  serveConnection service octets :=
    if octets = statsRequest then
      let response := service idleRequest
      match response.body with
      | .full data =>
          let reason := if response.status = 200 then "OK".toList else "Not Found".toList
          some (message (Utf8.encode (statusLine response.status reason) :: idleHeaders) data)
      | _ => none
    else none

example : idleJson.length = 1375 := by decide +kernel

theorem fits_idle : idle.Fits := by
  intro route member kind
  have none : route.kinds kind = ⟨.zero, .zero, .zero, 0⟩ := by
    obtain rfl := List.mem_singleton.mp member
    cases kind <;> decide +kernel
  rw [none]
  exact ⟨Totals.fits_zero, Totals.fits_zero, Totals.fits_zero, Nat.two_pow_pos 64⟩

theorem adminDocumented : adminCrates.Documented where
  report report fits := by
    refine ⟨_, rfl, ?_⟩
    have written := reportCodec.read_write report [] (valid_report fits)
    rw [List.append_nil] at written
    dsimp only [adminCrates]
    by_cases same : reportCodec.write report = reportCodec.write idle
    · have read := reportCodec.read_write idle [] (valid_report fits_idle)
      rw [List.append_nil, ← same, written] at read
      rw [if_pos same, if_pos rfl, (Prod.mk.inj (Option.some.inj read)).1]
    · have other : writeStrs (reportCodec.write report) ≠ idleJson := by
        intro clash
        apply head_writeStrs (reportCodec.write report)
        rw [clash]
        rfl
      rw [if_neg same, if_neg other, readStrs_writeStrs, Option.bind_some, written]
  request := by
    refine ⟨idleRequest, rfl, rfl, fun service data full => ?_⟩
    have lines : ∀ line ∈ idleHeaders, IsLine line := by
      have plain : ∀ line ∈ idleHeaders, line ≠ [] ∧ 13 ∉ line ∧ 10 ∉ line := by decide +kernel
      intro line member
      obtain ⟨nonempty, noReturn, noFeed⟩ := plain line member
      exact ⟨nonempty, noReturn, noFeed⟩
    dsimp only [adminCrates]
    rw [if_pos rfl, full]
    refine ⟨_, _, rfl, ?_, idleHeaders, lines, rfl⟩
    split <;> decide

/-- What `render_table` makes of this report. -/
def idleTable : Str :=
  "ROUTE / KIND                              TODAY   THIS MONTH  SINCE START ACTIVE\n".toList ++
    "a                                           0 B          0 B          0 B      0\n".toList ++
    "  api                                       0 B          0 B          0 B      0\n".toList ++
    "  media                                     0 B          0 B          0 B      0\n".toList ++
    "  image                                     0 B          0 B          0 B      0\n".toList ++
    "\nBytes sent to clients. Today is 2026-01-02; ".toList ++
    "running since 2026-01-02T03:04:05.000Z (proxemby 0.4.0).\n".toList

end Idle

end Proxemby.Admin
