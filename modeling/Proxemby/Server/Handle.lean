import Proxemby.Server.Body
import Proxemby.Server.Process
import Proxemby.Stats.Classify

/-!
# What is measured of a request

The outer part of `RouteProxy::handle` in `src/server/route.rs`: the counters that a
request and its bodies go to, and the log record that is written once a response is done.
-/

namespace Proxemby

open Text

/-- What the log says of a request once its response is done. -/
structure RequestLog where
  method : Method
  path : Str
  client : IpAddr
  target : Str
  userAgent : Str
  status : Nat
  deriving DecidableEq

/-- What `handle` keeps while the request is answered: its counters, with statistics on, and
its log record, at the debug level. -/
structure Served (κ : Type) where
  counters : Option κ
  log : Option RequestLog

section

variable {κ δ : Type}

/-- The request itself is counted first. -/
def Served.arrive (served : Served κ) : List (Effect κ δ) :=
  match served.counters with
  | some counters => [.update counters .addRequest]
  | none => []

/-- Adds a response body to the traffic statistics. -/
def meterResponse (counters : Option κ) (body : ProxyBody κ δ) :
    ProxyBody κ δ × List (Effect κ δ) :=
  match counters, body with
  | none, body => (body, [])
  | some counters, .incoming frames =>
      let (meter, effects) := Meter.forResponse counters
      (.metered frames meter, effects)
  | some counters, .full (some data) =>
      (.full (some data), [.update counters (.addBytesOut data.length)])
  | some _, body => (body, [])

/-- Wraps a client request body for forwarding, counting its bytes. -/
def requestBody (hints : Hints) (counters : Option κ) (frames : List Frame) :
    ProxyBody κ δ × List (Effect κ δ) :=
  match counters with
  | some counters =>
      if hints.isEndStream frames then (.incoming frames, [])
      else
        let (meter, effects) := Meter.forRequest counters
        (.metered frames meter, effects)
  | none => (.incoming frames, [])

/-- The body that a handler answers with. -/
def Body.toProxyBody : Body → ProxyBody κ δ
  | .empty => .empty
  | .full data => .full (some data)
  | .incoming frames => .incoming frames

/-- The end of `handle`: the body is metered, and counted for the log. -/
def Served.respond (served : Served κ) (response : Response) :
    ProxyBody κ RequestLog × List (Effect κ RequestLog) :=
  let (body, effects) := meterResponse served.counters response.body.toProxyBody
  match served.log with
  | none => (body, effects)
  | some log => (body.count { log with status := response.status }, effects)

/-! ## What is counted of a body -/

/-- The length of a body that is counted at once. -/
def Body.fullLength : Body → Nat
  | .full data => data.length
  | _ => 0

/-- What a body is to the traffic: the upload of a request, an answer that is passed on as it
comes, or an answer that is there as a whole. -/
inductive Part where
  | upload
  | streamed
  | whole
  deriving DecidableEq

def Body.part : Body → Part
  | .incoming _ => .streamed
  | _ => .whole

/-- The counter that the data of a body goes to as it is read.  An answer that is there as a
whole is counted when it is given. -/
def Part.field? : Part → Option Field
  | .upload => some .bytesIn
  | .streamed => some .bytesOut
  | .whole => none

/-- The meter of a body. -/
def Part.meter (part : Part) (counters : Option κ) : Option (Meter κ) :=
  match part with
  | .upload => counters.map fun counters => ⟨counters, false⟩
  | .streamed => counters.map fun counters => ⟨counters, true⟩
  | .whole => none

namespace Served

variable (served : Served κ)

theorem effects_respond (response : Response) : (served.respond response).2 =
    (meterResponse served.counters response.body.toProxyBody).2 := by
  rw [respond]
  cases served.log <;> rfl

/-- A streamed response is metered. -/
theorem meter_respond (response : Response) :
    (served.respond response).1.meter? = response.body.part.meter served.counters := by
  have body : (served.respond response).1.meter? =
      (meterResponse (δ := RequestLog) served.counters response.body.toProxyBody).1.meter? := by
    rw [respond]
    cases served.log <;> rfl
  rw [body]
  cases served.counters <;> cases response.body <;> rfl

/-- A logged response owes one call, with its status. -/
theorem counting_respond (response : Response) : (served.respond response).1.counting =
    (served.log.map fun log => ({ log with status := response.status }, 0)).toList := by
  have plain : (meterResponse (δ := RequestLog) served.counters
      response.body.toProxyBody).1.counting = [] := by
    cases served.counters <;> cases response.body <;> rfl
  rw [respond]
  cases served.log with
  | none => simp [plain]
  | some log => simp [ProxyBody.count, ProxyBody.counting, plain]

variable [DecidableEq κ]

theorem amount_arrive (counters : κ) (field : Field) :
    ((served.arrive : List (Effect κ δ)).map (Effect.amount counters field)).sum =
      if served.counters = some counters ∧ field = .requests then 1 else 0 := by
  cases own : served.counters with
  | none => simp [arrive, own]
  | some other =>
      by_cases same : other = counters <;> cases field <;>
        simp [arrive, own, same, Effect.amount, Update.amount]

theorem flow_arrive (counters : κ) :
    ((served.arrive : List (Effect κ δ)).map (Effect.flow counters)).sum = 0 := by
  cases own : served.counters <;> simp [arrive, own, Effect.flow, Update.flow]

/-- A buffered response is counted at once, a streamed one by its meter. -/
theorem amount_respond (response : Response) (counters : κ) (field : Field) :
    ((served.respond response).2.map (Effect.amount counters field)).sum =
      if served.counters = some counters ∧ field = .bytesOut then response.body.fullLength
      else 0 := by
  rw [effects_respond]
  cases own : served.counters with
  | none => simp [meterResponse]
  | some other =>
      cases response.body <;> by_cases same : other = counters <;> cases field <;>
        simp [meterResponse, Body.toProxyBody, Meter.forResponse, Body.fullLength, Effect.amount,
          Update.amount, same]

/-- A streamed response counts as active from the start. -/
theorem flow_respond (response : Response) (counters : κ) :
    ((served.respond response).2.map (Effect.flow counters)).sum =
      if served.counters = some counters ∧ response.body.part = .streamed then 1 else 0 := by
  rw [effects_respond]
  cases own : served.counters with
  | none => cases response.body <;> simp [meterResponse, Body.toProxyBody]
  | some other =>
      cases response.body <;> by_cases same : other = counters <;>
        simp [meterResponse, Body.toProxyBody, Body.part, Meter.forResponse, Effect.flow,
          Update.flow, same]

end Served

/-- The body of a forwarded request counts only as it is read. -/
theorem effects_requestBody (hints : Hints) (counters : Option κ) (frames : List Frame) :
    (requestBody (δ := δ) hints counters frames).2 = [] := by
  cases counters with
  | none => rfl
  | some counters =>
      rw [requestBody]
      split <;> rfl

theorem counting_requestBody (hints : Hints) (counters : Option κ) (frames : List Frame) :
    (requestBody (δ := δ) hints counters frames).1.counting = [] := by
  cases counters with
  | none => rfl
  | some counters =>
      rw [requestBody]
      split <;> rfl

/-- An upload is metered unless it has ended before it begins. -/
theorem meter_requestBody (hints : Hints) (counters : Option κ) (frames : List Frame) :
    (requestBody (δ := δ) hints counters frames).1.meter? = Part.upload.meter counters ∨
      (requestBody (δ := δ) hints counters frames).1.meter? = none ∧
        (hints.Documented → (requestBody (δ := δ) hints counters frames).1.frames = []) := by
  cases counters with
  | none => exact .inl rfl
  | some counters =>
      rw [requestBody]
      by_cases ended : hints.isEndStream frames = true
      · rw [if_pos ended]
        exact .inr ⟨rfl, fun documented => documented.ended frames ended⟩
      · rw [if_neg ended]
        exact .inl rfl

end

namespace RouteProxy

variable (proxy : RouteProxy)

/-- Where a request goes, for the log: the upstream, or the resource without its
signature. -/
def targetForLog (path : Str) : Str :=
  match stripPrefix resourcePrefix path with
  | none => "upstream:".toList ++ proxy.route.upstreamUrl.toStr
  | some rest =>
      let split :=
        match splitOnce '/' rest with
        | some (scheme, remainder) =>
            if isHttpScheme scheme then some (scheme, remainder) else splitOnce '/' remainder
        | none => none
      match split.bind fun (scheme, remainder) =>
          (splitOnce '/' remainder).map fun (host, _) => (scheme, host) with
      | some (scheme, host) => "resource:".toList ++ scheme ++ "://".toList ++ host
      | none => "resource:invalid".toList

/-- What the log is to say of a request. -/
def requestLog (crates : Crates) (req : Request) (conn : ConnInfo) : RequestLog where
  method := req.method
  path := sanitizeRequestUri req.path req.query
  client := clientAddr crates.ip req.headers conn proxy.cfg.trustProxyHeaders
  target := proxy.targetForLog req.path
  userAgent := (headerStr req.headers "user-agent").getD []
  status := 0

/-- The start of `handle`. -/
def serve {κ : Type} (crates : Crates) (debug : Bool) (stats : Option (Kind → κ)) (req : Request)
    (conn : ConnInfo) : Served κ where
  counters := stats.map fun kinds => kinds (classify req.path)
  log := if debug then some (proxy.requestLog crates req conn) else none

end RouteProxy

end Proxemby
