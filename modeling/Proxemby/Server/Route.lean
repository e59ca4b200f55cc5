import Proxemby.Auth.Token
import Proxemby.Rewrite.Document
import Proxemby.Server.AuthGate
import Proxemby.Server.Config
import Proxemby.Server.Headers

/-!
# Routes

`RouteProxy` of `src/server/route.rs`.  A handler runs up to the await of the
upstream's answer, where it leaves a task, and again from the answer to the
response; other requests run between the two.  A streamed request body goes through
unread, and logging and statistics do not affect a handler, so they are left out.
-/

namespace Proxemby

open Text Utf8 Rfc8259

/-- What the handlers of a route share: the store, when there are allowed users, the
files, and the hosts the route has learned. -/
structure World where
  auth : Option Store
  disk : Disk
  registry : Registry

structure RouteProxy where
  cfg : Config
  route : Route
  routeKey : Str
  rewriter : Rewriter
  allowedUsers : List Str

/-- The two upstream clients: one negotiates the version, one keeps to HTTP/1.1. -/
inductive Client where
  | default
  | http1
  deriving DecidableEq

/-- What `proxy_upstream` still needs when the answer arrives; `logout` is the token
that `handle_with_auth` forgets afterwards. -/
structure UpstreamTask where
  req : Request
  outPath : Str
  requestUpgrade : Option HeaderValue
  logout : Option Str
  deriving DecidableEq

/-- A handler that waits for an upstream. -/
inductive Task where
  | upstream (task : UpstreamTask)
  | resource (req : Request)
  deriving DecidableEq

/-- How a handler leaves a request: answered, or waiting for an upstream. -/
inductive Flow where
  | answer (response : Response)
  | send (client : Client) (out : OutRequest) (task : Task)
  deriving DecidableEq

structure Outcome where
  world : World
  flow : Flow

/-- What an await of the upstream ends with. -/
inductive SendResult where
  | reply (reply : Reply)
  | timeout
  | error (message : Str)
  deriving DecidableEq

/-- A handler that has answered, and the requests it has spawned. -/
structure Finished where
  world : World
  response : Response
  spawned : List OutRequest

def resourcePrefix : Str := "/_proxy/".toList

def splitFirstSegment (path : Str) : Str × Option Str :=
  match splitOnce '/' path with
  | some (first, rest) => (first, some rest)
  | none => (path, none)

def isHttpScheme (scheme : Str) : Bool :=
  scheme = "http".toList || scheme = "https".toList

def isPlaybackInfoPath (path : Str) : Bool :=
  (path.splitOn '/').any fun part => eqIgnoreAsciiCase part "PlaybackInfo".toList

/-- Join the upstream base path and the request path with a single slash, like Go's
`httputil` `singleJoiningSlash`. -/
def joinPath (base path : Str) : Str :=
  match ['/'].isSuffixOf base, ['/'].isPrefixOf path with
  | true, true => base ++ path.drop 1
  | false, false => base ++ '/' :: path
  | _, _ => base ++ path

def joinQuery (base query : Str) : Str :=
  if base = [] then query
  else if query = [] then base
  else base ++ '&' :: query

/-- The host of a request like Go's `Request.Host`: the authority for HTTP/2 or
absolute-form requests, otherwise the `Host` header. -/
def requestHost (req : Request) : Str :=
  match req.authority with
  | some authority => authority
  | none => ((req.headers.get "host".toList).bind HeaderValue.toStr).getD []

/-- The answer of an await, or the status that stands for its failure. -/
def SendResult.toReply : SendResult → Except Nat Reply
  | .reply answer => .ok answer
  | .timeout => .error 504
  | .error _ => .error 502

/-- An answer passed on as it comes. -/
def Reply.response (reply : Reply) : Response where
  status := reply.status
  headers := reply.headers
  body := .incoming reply.frames

inductive BodyError where
  | tooLarge
  | read (message : Str)
  deriving DecidableEq

/-- The frame loop of `read_body`. -/
def collectFrames (max : Nat) (buf : Bytes) : List Frame → Except BodyError Bytes
  | [] => .ok buf
  | .data bytes :: frames =>
      if buf.length + bytes.length > max then .error .tooLarge
      else collectFrames max (buf ++ bytes) frames
  | .trailers :: frames => collectFrames max buf frames
  | .error message :: _ => .error (.read message)

/-- The answer to `/Users/Public`, which does not reveal the upstream user list. -/
def publicUsers : Response where
  status := 200
  headers := HeaderMap.empty.insert "content-type".toList (.fromStatic "application/json")
  body := .full (encode "[]".toList)

def unauthorized : Response := textResponse 401 "unauthorized"

/-- The parts of a resource path: its first segment, which is the scheme or the
signature in front of it, and what it points to. -/
structure ResourceParts where
  first : Str
  scheme : Str
  host : Str
  rest : Str
  deriving DecidableEq

/-- Cut the host off what follows the scheme. -/
def splitHost (first scheme remainder : Str) : Except String ResourceParts :=
  match splitOnce '/' remainder with
  | some (host, rest) =>
      if host ≠ [] then .ok { first, scheme, host, rest }
      else .error "missing proxied resource host"
  | none => .error "missing proxied resource host"

/-- Cut a resource path, or say what it lacks. -/
def resourceParts (auth : Bool) (path : Str) : Except String ResourceParts :=
  let (first, remainder) := splitFirstSegment (path.drop resourcePrefix.length)
  let (scheme, remainder) :=
    -- Signed URLs carry the signature in front of the scheme.
    match auth && !isHttpScheme first, remainder with
    | true, some rest => splitFirstSegment rest
    | _, _ => (first, remainder)
  match if isHttpScheme scheme then remainder else none with
  | none => .error "missing or invalid proxied resource scheme"
  | some remainder => splitHost first scheme remainder

/-- The absolute URL of a resource. -/
def ResourceParts.target (parts : ResourceParts) (query : Option Str) : Str :=
  parts.scheme ++ "://".toList ++ parts.host ++ '/' :: parts.rest ++
    match query with
    | some query => '?' :: query
    | none => []

namespace RouteProxy

variable (crates : Crates)

/-- A route of the configuration.  Its registry starts from the allowed hosts, and
its rewriter signs with the store's secret. -/
def new (cfg : Config) (route : Route) (auth : Option Store) : RouteProxy :=
  let routeKey := toAsciiLowercase route.publicUrl.hostname
  let rewriter := Rewriter.new route.publicUrl
  { cfg
    route
    routeKey
    rewriter :=
      match auth with
      | some store =>
          rewriter.withSigner fun scheme host =>
            store.sign crates.toStoreCrates [routeKey, scheme, host]
      | none => rewriter
    allowedUsers := cfg.allowedUsers.map crates.toLowercase }

variable (proxy : RouteProxy)

/-- Read a response body up to the PlaybackInfo size limit, decoding gzip. -/
def readBody (reply : Reply) : Except BodyError Bytes :=
  let max := (Max.max proxy.cfg.playbackinfoMaxBytes 1).toNat
  match collectFrames max [] reply.frames with
  | .error e => .error e
  | .ok buf =>
      let gzip := (reply.headers.get "content-encoding".toList).any fun v =>
        eqIgnoreAsciiCaseBytes v (encode "gzip".toList)
      if !gzip then .ok buf
      else
        -- The decoder is read for at most one octet over the limit.
        let (decoded, failure) := crates.gunzip buf
        if decoded.length > max then .error .tooLarge
        else
          match failure with
          | some message => .error (.read message)
          | none => .ok decoded

/-! ## Requests -/

/-- The upstream URL of a request. -/
def upstreamTarget (req : Request) : Str :=
  let upstream := proxy.route.upstreamUrl
  let query := joinQuery upstream.query (req.query.getD [])
  upstream.scheme ++ "://".toList ++ upstream.host ++ joinPath upstream.path req.path ++
    if query = [] then [] else '?' :: query

/-- The headers that tell the upstream about the client, or hide it. -/
def clientHeaders (req : Request) (conn : ConnInfo) (headers : HeaderMap) : HeaderMap :=
  if proxy.cfg.hideClient then headers.removeAll identityHeaders
  else
    let insert (headers : HeaderMap) (name : String) (value : Option HeaderValue) :=
      match value with
      | some value => headers.insert name.toList value
      | none => headers
    let headers :=
      insert headers "x-forwarded-for" (HeaderValue.fromStr (crates.ip.display conn.remote))
    let headers := insert headers "x-forwarded-host" (HeaderValue.fromStr (requestHost req))
    headers.insert "x-forwarded-proto".toList
      (.fromStatic (if conn.tls then "https" else "http"))

/-- `proxy_upstream` up to the await. -/
def proxyUpstream (auth : Option Store) (req : Request) (conn : ConnInfo)
    (logout : Option Str) : Flow :=
  let login := auth.isSome && isLoginPath req.path
  let bufferResponse := login || isPlaybackInfoPath req.path
  let target := proxy.upstreamTarget req
  match crates.parseUri target with
  | none => .answer (emptyResponse 502)
  | some outPath =>
      let requestUpgrade := upgradeType req.headers
      let headers := prepareOutboundHeaders req.headers requestUpgrade
      let headers := proxy.clientHeaders crates req conn headers
      let headers :=
        if bufferResponse then headers.remove "accept-encoding".toList else headers
      .send (if requestUpgrade.isSome then .http1 else .default)
        { method := req.method, uri := target, headers }
        (.upstream { req, outPath, requestUpgrade, logout })

/-- Whether a request may have the resource: with allowed users set, it needs a valid
signature, or no signature and a token of the route. -/
def resourceAuthorized (auth : Option Store) (req : Request) (parts : ResourceParts) : Bool :=
  match auth with
  | none => true
  | some store =>
      if isHttpScheme parts.first then
        store.isValid ((requestToken req.headers req.query).getD []) proxy.routeKey
      else
        store.verify crates.toStoreCrates parts.first
          [proxy.routeKey, parts.scheme, parts.host]

/-- `proxy_resource` up to the await. -/
def proxyResource (world : World) (req : Request) : Flow :=
  match resourceParts world.auth.isSome req.path with
  | .error msg => .answer (textResponse 400 msg)
  | .ok parts =>
      if !proxy.resourceAuthorized crates world.auth req parts then
        .answer (textResponse 403 "proxied resource is not authorized")
      else if (world.registry.lookup parts.host).isNone then
        .answer (textResponse 403 "proxied resource host is not allowed")
      else
        let target := parts.target req.query
        match crates.parseUri target with
        | none => .answer (textResponse 400 "invalid proxied resource URL")
        | some _ =>
            .send .default
              { method := req.method, uri := target
                headers := prepareOutboundHeaders req.headers none }
              (.resource req)

/-- Forget the session of a token after a logout. -/
def removeSession (world : World) (env : Env) (logout : Option Str) : World :=
  match logout, world.auth with
  | some token, some store =>
      let (store, disk, _) := store.remove crates.toStoreCrates world.disk env token
      { world with auth := some store, disk }
  | _, _ => world

/-- `handle_with_auth`: only requests with an access token that was issued to an
allowed user by a login through this route get to the upstream, and those to a public
endpoint. -/
def handleWithAuth (world : World) (store : Store) (env : Env) (req : Request)
    (conn : ConnInfo) : Outcome :=
  if resourcePrefix.isPrefixOf req.path then ⟨world, proxy.proxyResource crates world req⟩
  else
    let segments := embyPathSegments req.path
    if matchSegments segments ["users", "public"] then ⟨world, .answer publicUsers⟩
    else if isPublicEmbyPath req.method segments then
      ⟨world, proxy.proxyUpstream crates world.auth req conn none⟩
    else
      match requestToken req.headers req.query with
      | none => ⟨world, .answer unauthorized⟩
      | some token =>
          if store.isValid token proxy.routeKey then
            let logout :=
              if matchSegments segments ["sessions", "logout"] then some token else none
            match proxy.proxyUpstream crates world.auth req conn logout with
            | .answer response => ⟨removeSession crates world env logout, .answer response⟩
            | .send client out task => ⟨world, .send client out task⟩
          else ⟨world, .answer unauthorized⟩

def routeRequest (world : World) (req : Request) (conn : ConnInfo) : Flow :=
  if resourcePrefix.isPrefixOf req.path then proxy.proxyResource crates world req
  else proxy.proxyUpstream crates world.auth req conn none

/-- The client filter rejects a request. -/
def filterClient (req : Request) (conn : ConnInfo) : Bool :=
  proxy.cfg.allowedClients ≠ [] &&
    !isAllowed proxy.cfg.allowedClients
      (clientAddr crates.ip req.headers conn proxy.cfg.trustProxyHeaders)

def handleChecked (world : World) (env : Env) (req : Request) (conn : ConnInfo) : Outcome :=
  if proxy.filterClient crates req conn then
    ⟨world, .answer (textResponse 403 "client IP is not allowed")⟩
  else
    match world.auth with
    | some store => proxy.handleWithAuth crates world store env req conn
    | none => ⟨world, proxy.routeRequest crates world req conn⟩

/-! ## Answers -/

/-- The protocol switch an upstream offers, against the one the client asked for. -/
def handleUpgradeResponse (reply : Reply) (requestUpgrade : Option HeaderValue) : Response :=
  match requestUpgrade with
  | none => emptyResponse 502
  | some requested =>
      if (upgradeType reply.headers).any fun r => eqIgnoreAsciiCaseBytes r requested then
        { status := reply.status, headers := reply.headers, body := .empty }
      else emptyResponse 502

/-- An answer whose body was buffered. -/
def fullResponse (reply : Reply) (body : Bytes) : Response where
  status := reply.status
  headers := setFullBody reply.headers body.length
  body := .full body

/-- The rewriter on a PlaybackInfo answer. -/
def rewritePlaybackInfo (world : World) (reply : Reply) : Finished :=
  match proxy.readBody crates reply with
  | .error _ => ⟨world, emptyResponse 502, []⟩
  | .ok body =>
      let (registry, rewritten, _) :=
        (proxy.rewriter.rewritePlaybackInfo crates.toJson world.registry body).get
          (proxy.rewriter.rewritePlaybackInfo_isSome crates.toJson world.registry body)
      ⟨{ world with registry }, fullResponse reply (rewritten.getD body), []⟩

/-- The request that revokes a token for a user that is not allowed, so the upstream
session does not linger. -/
def logoutUpstream (loginPath token : Str) : Option OutRequest :=
  let segments := loginPath.splitOn '/'
  let before := segments.reverse.dropWhile fun s => !eqIgnoreAsciiCase s "users".toList
  let basePath :=
    match before with
    | [] => loginPath
    | _ :: before => ['/'].intercalate before.reverse
  let upstream := proxy.route.upstreamUrl
  let target := upstream.scheme ++ "://".toList ++ upstream.host ++ basePath ++
    "/Sessions/Logout".toList
  (crates.parseUri target).map fun _ =>
    { method := .post
      uri := target
      headers :=
        match HeaderValue.fromStr token with
        | some value => HeaderMap.empty.insert "x-emby-token".toList value
        | none => HeaderMap.empty }

/-- Only hand the access token back to the client when the upstream login belongs to
an allowed user. -/
def handleLoginResponse (world : World) (store : Store) (env : Env) (reply : Reply)
    (outPath : Str) : Finished :=
  if reply.status ≠ 200 then ⟨world, reply.response, []⟩
  else
    match proxy.readBody crates reply with
    | .error _ => ⟨world, emptyResponse 502, []⟩
    | .ok body =>
        let login := LoginReply.ofJson ((crates.parseJson body).getD .null)
        if login.token ≠ [] ∧ crates.toLowercase login.userName ∈ proxy.allowedUsers then
          let session := Session.new env proxy.routeKey login.userId login.userName
          match store.add crates.toStoreCrates world.disk env login.token session with
          | (store, disk, .error _) =>
              ⟨{ world with auth := some store, disk }, emptyResponse 502, []⟩
          | (store, disk, .ok ()) =>
              ⟨{ world with auth := some store, disk }, fullResponse reply body, []⟩
        else
          ⟨world, textResponse 401 "user is not allowed",
            if login.token ≠ [] then (proxy.logoutUpstream crates outPath login.token).toList
            else []⟩

/-- `proxy_upstream` from the await on. -/
def upstreamReply (world : World) (env : Env) (task : UpstreamTask) (result : SendResult) :
    Finished :=
  match result.toReply with
  | .error status => ⟨world, emptyResponse status, []⟩
  | .ok reply =>
      if reply.status = 101 then
        ⟨world, handleUpgradeResponse reply task.requestUpgrade, []⟩
      else
        let reply := { reply with headers := removeHopByHop reply.headers }
        -- The store, when the request is a login that the proxy must look at.
        match if isLoginPath task.req.path then world.auth else none with
        | some store => proxy.handleLoginResponse crates world store env reply task.outPath
        | none =>
            if isPlaybackInfoPath task.req.path && isJsonContentType reply.headers then
              proxy.rewritePlaybackInfo crates world reply
            else ⟨world, reply.response, []⟩

/-- `proxy_resource` from the await on. -/
def resourceReply (world : World) (result : SendResult) : Finished :=
  match result.toReply with
  | .error status => ⟨world, emptyResponse status, []⟩
  | .ok reply => ⟨world, { reply.response with headers := removeHopByHop reply.headers }, []⟩

/-- A handler from the await on. -/
def resume (world : World) (env : Env) (task : Task) (result : SendResult) : Finished :=
  match task with
  | .upstream task =>
      let finished := proxy.upstreamReply crates world env task result
      { finished with world := removeSession crates finished.world env task.logout }
  | .resource _ => resourceReply world result

end RouteProxy

example : joinPath "/base/".toList "/emby".toList = "/base/emby".toList := by decide

example : joinQuery "k=v".toList "a=1".toList = "k=v&a=1".toList := by decide

end Proxemby
