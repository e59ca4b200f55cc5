import Proxemby.Server.Resource

/-!
# Headers that go to the upstream

What a forwarded request keeps of the headers of its client.  A `Connection` value is read
as text, so the names in one that is not visible ASCII are overlooked.
-/

namespace Proxemby

open Text Utf8

/-- The headers of a proxy about its client. -/
def forwardingHeaders : List Str :=
  ["forwarded".toList, "x-forwarded-for".toList, "x-forwarded-host".toList,
    "x-forwarded-proto".toList]

/-- The names that a `Connection` value lists, octet by octet. -/
def listedNames (value : HeaderValue) : List Str :=
  ((value.map fun b => Char.ofNat b.toNat).splitOn ',').filterMap fun part =>
    headerName (trimMatches (fun c => c = ' ' || c = '\t') part)

/-- Some `Connection` value lists a name. -/
def Listed (headers : HeaderMap) (name : Str) : Prop :=
  ∃ value ∈ headers.getAll "connection".toList, name ∈ listedNames value

/-- A `Connection` value that the proxy cannot read lists a name. -/
def ListedUnread (headers : HeaderMap) (name : Str) : Prop :=
  ∃ value ∈ headers.getAll "connection".toList, value.toStr = none ∧ name ∈ listedNames value

/-- The names that the proxy reads in `Connection` values. -/
def readNames (headers : HeaderMap) : List Str :=
  (headerTokens headers "connection".toList).filterMap headerName

/-- In readable text, white space is blanks and tabs. -/
theorem isWhitespace_ofNat {b : UInt8} (visible : (0x20 ≤ b ∧ b < 0x7F) ∨ b = 0x09) :
    (Char.ofNat b.toNat = ' ' || Char.ofNat b.toNat = '\t') =
      isWhitespace (Char.ofNat b.toNat) := by
  have all : ∀ n : Fin 256, (0x20 ≤ n.val ∧ n.val < 0x7F) ∨ n.val = 9 →
      (Char.ofNat n = ' ' || Char.ofNat n = '\t') = isWhitespace (Char.ofNat n) := by
    decide +kernel
  refine all ⟨b.toNat, b.toNat_lt⟩ ?_
  simpa [UInt8.le_iff_toNat_le, UInt8.lt_iff_toNat_lt, ← UInt8.toNat_inj] using visible

theorem listedNames_toStr {value : HeaderValue} {text : Str} (readable : value.toStr = some text) :
    listedNames value = ((text.splitOn ',').map trim).filterMap headerName := by
  rw [HeaderValue.toStr] at readable
  split at readable
  · next visible =>
      rw [Option.some.injEq] at readable
      rw [listedNames, readable, List.filterMap_map]
      refine List.filterMap_congr fun part member => congrArg headerName ?_
      apply trimMatches_congr
      intro c inside
      have known := mem_of_mem_splitOn member inside
      rw [← readable, List.mem_map] at known
      obtain ⟨b, octet, rfl⟩ := known
      have range := List.all_eq_true.mp visible b octet
      exact isWhitespace_ofNat (by simpa using range)
  · cases readable

theorem mem_readNames {headers : HeaderMap} {name : Str} :
    name ∈ readNames headers ↔ ∃ value ∈ headers.getAll "connection".toList,
      value.toStr ≠ none ∧ name ∈ listedNames value := by
  rw [readNames, headerTokens, List.filterMap_flatMap, List.mem_flatMap]
  constructor
  · rintro ⟨text, member, listed⟩
    obtain ⟨value, known, readable⟩ := List.mem_filterMap.mp member
    refine ⟨value, known, by simp [readable], ?_⟩
    rwa [listedNames_toStr readable]
  · rintro ⟨value, known, readable, listed⟩
    obtain ⟨text, toStr⟩ := Option.ne_none_iff_exists'.mp readable
    rw [listedNames_toStr toStr] at listed
    exact ⟨text, List.mem_filterMap.mpr ⟨value, known, toStr⟩, listed⟩

/-- A listed name is read, or it is in a value that is not. -/
theorem listed_iff {headers : HeaderMap} {name : Str} :
    Listed headers name ↔ name ∈ readNames headers ∨ ListedUnread headers name := by
  rw [mem_readNames]
  constructor
  · rintro ⟨value, known, listed⟩
    by_cases readable : value.toStr = none
    · exact .inr ⟨value, known, readable, listed⟩
    · exact .inl ⟨value, known, readable, listed⟩
  · rintro (⟨value, known, -, listed⟩ | ⟨value, known, -, listed⟩)
    · exact ⟨value, known, listed⟩
    · exact ⟨value, known, listed⟩

/-! ## What the header functions keep -/

theorem getAll_removeHopByHop (headers : HeaderMap) (name : Str) :
    (removeHopByHop headers).getAll name =
      if name ∈ hopByHop ∨ name ∈ readNames headers then [] else headers.getAll name := by
  rw [removeHopByHop, HeaderMap.getAll_removeAll, HeaderMap.getAll_removeAll, ← readNames]
  by_cases hop : name ∈ hopByHop
  · rw [if_pos hop, if_pos (.inl hop)]
  · by_cases read : name ∈ readNames headers
    · rw [if_neg hop, if_pos read, if_pos (.inr read)]
    · rw [if_neg hop, if_neg read, if_neg (by simp [hop, read])]

/-- The hop-by-hop headers that are put back: `TE: trailers`, and the upgrade. -/
def putBack (headers : HeaderMap) (upgrade : Option HeaderValue) (name : Str) :
    List HeaderValue :=
  if name = "te".toList then
    if headerValuesContainToken headers "te".toList "trailers".toList then
      [.fromStatic "trailers"]
    else []
  else if name = "connection".toList then
    if upgrade.isSome then [.fromStatic "Upgrade"] else []
  else if name = "upgrade".toList then upgrade.toList
  else []

/-- The headers with `TE: trailers`, when the client lists it. -/
def withTe (headers : HeaderMap) (trailers : Bool) : HeaderMap :=
  if trailers then headers.insert "te".toList (.fromStatic "trailers") else headers

def withUpgrade (headers : HeaderMap) : Option HeaderValue → HeaderMap
  | some upgrade =>
      (headers.insert "connection".toList (.fromStatic "Upgrade")).insert "upgrade".toList upgrade
  | none => headers

theorem prepareOutboundHeaders_eq (headers : HeaderMap) (upgrade : Option HeaderValue) :
    prepareOutboundHeaders headers upgrade =
      ((withUpgrade (withTe (removeHopByHop headers)
        (headerValuesContainToken headers "te".toList "trailers".toList)) upgrade).removeAll
          forwardingHeaders).remove "host".toList := by
  cases upgrade with
  | none => rfl
  | some upgrade => rfl

theorem getAll_withTe (headers : HeaderMap) (trailers : Bool) (name : Str) :
    (withTe headers trailers).getAll name =
      if trailers ∧ name = "te".toList then [.fromStatic "trailers"] else headers.getAll name := by
  cases trailers with
  | false => rw [withTe, if_neg (by decide), if_neg (by simp)]
  | true => simp only [withTe, if_true, HeaderMap.getAll_insert, true_and]

theorem getAll_withUpgrade (headers : HeaderMap) (upgrade : Option HeaderValue) (name : Str) :
    (withUpgrade headers upgrade).getAll name =
      if upgrade.isSome ∧ name = "upgrade".toList then upgrade.toList
      else if upgrade.isSome ∧ name = "connection".toList then [.fromStatic "Upgrade"]
      else headers.getAll name := by
  cases upgrade with
  | none => simp only [withUpgrade, Option.isSome_none, Bool.false_eq_true, false_and, if_false]
  | some value =>
      simp only [withUpgrade, HeaderMap.getAll_insert, Option.isSome_some, true_and,
        Option.toList_some]

theorem getAll_prepareOutbound (headers : HeaderMap) (upgrade : Option HeaderValue)
    (name : Str) :
    (prepareOutboundHeaders headers upgrade).getAll name =
      if name = "host".toList ∨ name ∈ forwardingHeaders then []
      else if name ∈ hopByHop then putBack headers upgrade name
      else if name ∈ readNames headers then []
      else headers.getAll name := by
  have te : "te".toList ∈ hopByHop := by decide
  have connection : "connection".toList ∈ hopByHop := by decide
  have upgradeName : "upgrade".toList ∈ hopByHop := by decide
  rw [prepareOutboundHeaders_eq, HeaderMap.getAll_remove, HeaderMap.getAll_removeAll,
    getAll_withUpgrade, getAll_withTe, getAll_removeHopByHop]
  by_cases host : name = "host".toList
  · rw [if_pos host, if_pos (.inl host)]
  by_cases forwarding : name ∈ forwardingHeaders
  · rw [if_neg host, if_pos forwarding, if_pos (.inr forwarding)]
  rw [if_neg host, if_neg forwarding, if_neg (not_or.mpr ⟨host, forwarding⟩)]
  by_cases hop : name ∈ hopByHop
  · have base : (if name ∈ hopByHop ∨ name ∈ readNames headers then [] else headers.getAll name) =
        [] := if_pos (.inl hop)
    rw [if_pos hop, base, putBack]
    by_cases te : name = "te".toList
    · have connection : name ≠ "connection".toList := by rw [te]; decide
      have upgradeName : name ≠ "upgrade".toList := by rw [te]; decide
      simp only [connection, upgradeName, and_false, if_false]
      simp only [te, and_true, if_true]
    · simp only [te, and_false, if_false]
      by_cases connection : name = "connection".toList
      · have upgradeName : name ≠ "upgrade".toList := by rw [connection]; decide
        simp only [upgradeName, and_false, if_false]
        simp only [connection, and_true, if_true]
      · simp only [connection, and_false, if_false]
        by_cases upgradeName : name = "upgrade".toList
        · cases upgrade with
          | none =>
              simp only [Option.isSome_none, Bool.false_eq_true, false_and, Option.toList_none,
                ite_self]
          | some value => simp only [Option.isSome_some, true_and]
        · simp only [upgradeName, and_false, if_false]
  · have other (kept : Str) (member : kept ∈ hopByHop) : name ≠ kept :=
      fun same => hop (same ▸ member)
    simp only [other _ te, other _ connection, other _ upgradeName, hop, and_false, if_false,
      false_or]

/-! ## Clean headers -/

/-- What a forwarded request may tell its upstream: `own` is what the proxy says about the
client, and `dropped` what it leaves out besides. -/
structure Clean (client : HeaderMap) (own : Str → List HeaderValue)
    (upgrade : Option HeaderValue) (dropped : List Str) (out : HeaderMap) : Prop where
  host : out.getAll "host".toList = []
  forwarding : ∀ name ∈ forwardingHeaders, out.getAll name = own name
  hopByHop : ∀ name ∈ hopByHop, out.getAll name = putBack client upgrade name
  listed : ∀ name, Listed client name → name ∉ forwardingHeaders → name ∉ Proxemby.hopByHop →
    out.getAll name = []
  passed : ∀ name, name ≠ "host".toList → name ∉ forwardingHeaders →
    name ∉ Proxemby.hopByHop → ¬Listed client name → name ∉ dropped →
    out.getAll name = client.getAll name

/-- What an unreadable `Connection` value lists is not there, or it goes anyway. -/
def ReadsConnection (client : HeaderMap) (dropped : List Str) : Prop :=
  ∀ name, ListedUnread client name → client.getAll name = [] ∨ name ∈ readNames client ∨
    name = "host".toList ∨ name ∈ forwardingHeaders ∨ name ∈ hopByHop ∨ name ∈ dropped

/-- The values of each name in a forwarded request. -/
def forwardedValues (client : HeaderMap) (own : Str → List HeaderValue)
    (upgrade : Option HeaderValue) (dropped : List Str) (name : Str) : List HeaderValue :=
  if name = "host".toList then []
  else if name ∈ forwardingHeaders then own name
  else if name ∈ hopByHop then putBack client upgrade name
  else if name ∈ readNames client ∨ name ∈ dropped then []
  else client.getAll name

theorem clean_iff {client out : HeaderMap} {own : Str → List HeaderValue}
    {upgrade : Option HeaderValue} {dropped : List Str}
    (values : ∀ name, out.getAll name = forwardedValues client own upgrade dropped name) :
    Clean client own upgrade dropped out ↔ ReadsConnection client dropped := by
  have plain {name : Str} (host : name ≠ "host".toList) (forwarding : name ∉ forwardingHeaders)
      (hop : name ∉ hopByHop) : out.getAll name =
        if name ∈ readNames client ∨ name ∈ dropped then [] else client.getAll name := by
    rw [values, forwardedValues, if_neg host, if_neg forwarding, if_neg hop]
  have atHost : out.getAll "host".toList = [] := by
    rw [values, forwardedValues, if_pos rfl]
  have noHost (name : Str) (member : name ∈ forwardingHeaders ∨ name ∈ hopByHop) :
      name ≠ "host".toList := by
    rintro rfl
    revert member
    decide
  constructor
  · intro clean name unread
    by_contra kept
    simp only [not_or] at kept
    obtain ⟨present, read, host, forwarding, hop, dropped⟩ := kept
    have gone := clean.listed name (listed_iff.mpr (.inr unread)) forwarding hop
    rw [plain host forwarding hop, if_neg (not_or.mpr ⟨read, dropped⟩)] at gone
    exact present gone
  · intro reads
    refine ⟨atHost, ?_, ?_, ?_, ?_⟩
    · intro name member
      rw [values, forwardedValues, if_neg (noHost name (.inl member)), if_pos member]
    · intro name member
      have forwarding : name ∉ forwardingHeaders := by
        revert name
        decide
      rw [values, forwardedValues, if_neg (noHost name (.inr member)), if_neg forwarding,
        if_pos member]
    · intro name listed forwarding hop
      by_cases host : name = "host".toList
      · rw [host, atHost]
      rw [plain host forwarding hop]
      by_cases out : name ∈ readNames client ∨ name ∈ dropped
      · rw [if_pos out]
      · rw [if_neg out]
        rw [not_or] at out
        have unread := (listed_iff.mp listed).resolve_left out.1
        rcases reads name unread with none | read | same | member | member | member
        · exact none
        · exact absurd read out.1
        · exact absurd same host
        · exact absurd member forwarding
        · exact absurd member hop
        · exact absurd member out.2
    · intro name host forwarding hop unlisted kept
      have unread : name ∉ readNames client := fun read => unlisted (listed_iff.mpr (.inl read))
      rw [plain host forwarding hop, if_neg (not_or.mpr ⟨unread, kept⟩)]

namespace RouteProxy

variable (crates : Crates) (proxy : RouteProxy)

/-- What the proxy says about the client of a request. -/
def ownForwarding (req : Request) (conn : ConnInfo) (name : Str) : List HeaderValue :=
  if proxy.cfg.hideClient then []
  else if name = "x-forwarded-for".toList then
    (HeaderValue.fromStr (crates.ip.display conn.remote)).toList
  else if name = "x-forwarded-host".toList then (HeaderValue.fromStr (requestHost req)).toList
  else if name = "x-forwarded-proto".toList then
    [.fromStatic (if conn.tls then "https" else "http")]
  else []

/-- What `proxy_upstream` leaves out: the identity of the client if it is to be hidden, and
the codings of a response that it has to read. -/
def droppedHeaders (auth : Option Store) (req : Request) : List Str :=
  (if proxy.cfg.hideClient then identityHeaders else []) ++
    if auth.isSome && isLoginPath req.path || isPlaybackInfoPath req.path then
      ["accept-encoding".toList]
    else []

/-- Set a header when there is a value for it. -/
def insertSome (headers : HeaderMap) (name : Str) (value : Option HeaderValue) : HeaderMap :=
  match value with
  | some value => headers.insert name value
  | none => headers

theorem getAll_insertSome {headers : HeaderMap} {name : Str} (absent : headers.getAll name = [])
    (value : Option HeaderValue) (other : Str) :
    (insertSome headers name value).getAll other =
      if other = name then value.toList else headers.getAll other := by
  cases value with
  | some value => rw [insertSome, HeaderMap.getAll_insert, Option.toList_some]
  | none =>
      by_cases same : other = name
      · rw [if_pos same, same, insertSome, absent, Option.toList_none]
      · rw [if_neg same, insertSome]

theorem clientHeaders_eq (req : Request) (conn : ConnInfo) (headers : HeaderMap) :
    proxy.clientHeaders crates req conn headers =
      if proxy.cfg.hideClient then headers.removeAll identityHeaders
      else
        (insertSome (insertSome headers "x-forwarded-for".toList
          (HeaderValue.fromStr (crates.ip.display conn.remote))) "x-forwarded-host".toList
          (HeaderValue.fromStr (requestHost req))).insert "x-forwarded-proto".toList
            (.fromStatic (if conn.tls then "https" else "http")) := rfl

/-- The headers of a client without forwarding headers, with those of the proxy. -/
theorem getAll_clientHeaders (req : Request) (conn : ConnInfo) {headers : HeaderMap}
    (absent : ∀ name ∈ forwardingHeaders, headers.getAll name = []) (name : Str) :
    (proxy.clientHeaders crates req conn headers).getAll name =
      if name ∈ forwardingHeaders then proxy.ownForwarding crates req conn name
      else if proxy.cfg.hideClient ∧ name ∈ identityHeaders then []
      else headers.getAll name := by
  have forClient : "x-forwarded-for".toList ∈ forwardingHeaders := by decide
  have forHost : "x-forwarded-host".toList ∈ forwardingHeaders := by decide
  have forProto : "x-forwarded-proto".toList ∈ forwardingHeaders := by decide
  have differ : "x-forwarded-host".toList ≠ "x-forwarded-for".toList := by decide
  rw [clientHeaders_eq, ownForwarding]
  by_cases hide : proxy.cfg.hideClient = true
  · simp only [hide, if_true, true_and, HeaderMap.getAll_removeAll]
    by_cases forwarding : name ∈ forwardingHeaders
    · rw [if_pos forwarding, absent name forwarding, ite_self]
    · rw [if_neg forwarding]
  · have protoOther : "x-forwarded-proto".toList ≠ "x-forwarded-for".toList ∧
        "x-forwarded-proto".toList ≠ "x-forwarded-host".toList := by decide
    simp only [hide, Bool.false_eq_true, if_false, false_and]
    rw [HeaderMap.getAll_insert, getAll_insertSome, getAll_insertSome (absent _ forClient)]
    · by_cases proto : name = "x-forwarded-proto".toList
      · rw [if_pos proto, proto, if_pos forProto, if_neg protoOther.1, if_neg protoOther.2,
          if_pos rfl]
      rw [if_neg proto]
      by_cases host : name = "x-forwarded-host".toList
      · rw [if_pos host, host, if_pos forHost, if_neg differ, if_pos rfl]
      rw [if_neg host]
      by_cases client : name = "x-forwarded-for".toList
      · rw [if_pos client, client, if_pos forClient, if_pos rfl]
      rw [if_neg client, if_neg client, if_neg host, if_neg proto]
      by_cases forwarding : name ∈ forwardingHeaders
      · rw [if_pos forwarding, absent name forwarding]
      · rw [if_neg forwarding]
    · rw [getAll_insertSome (absent _ forClient), if_neg differ, absent _ forHost]

/-- Without values of the proxy's own, the prepared headers are what is sent. -/
theorem getAll_prepareOutbound_eq (headers : HeaderMap) (upgrade : Option HeaderValue)
    (name : Str) :
    (prepareOutboundHeaders headers upgrade).getAll name =
      forwardedValues headers (fun _ => []) upgrade [] name := by
  rw [getAll_prepareOutbound, forwardedValues]
  by_cases host : name = "host".toList
  · rw [if_pos (.inl host), if_pos host]
  · by_cases forwarding : name ∈ forwardingHeaders
    · rw [if_pos (.inr forwarding), if_neg host, if_pos forwarding]
    · rw [if_neg (not_or.mpr ⟨host, forwarding⟩), if_neg host, if_neg forwarding]
      simp only [List.not_mem_nil, or_false]

/-- What the proxy adds and leaves out, name by name. -/
theorem forwardedValues_split (client : HeaderMap) (own : Str → List HeaderValue)
    (upgrade : Option HeaderValue) {dropped : List Str} (name : Str)
    (kept : name ∈ hopByHop → name ∉ dropped) :
    forwardedValues client own upgrade dropped name =
      if name ∈ forwardingHeaders then own name
      else if name ∈ dropped then []
      else forwardedValues client (fun _ => []) upgrade [] name := by
  simp only [forwardedValues, List.not_mem_nil, or_false]
  by_cases forwarding : name ∈ forwardingHeaders
  · have host : name ≠ "host".toList := by
      rintro rfl
      revert forwarding
      decide
    rw [if_neg host, if_pos forwarding, if_pos forwarding]
  · by_cases host : name = "host".toList
    · rw [if_pos host, if_neg forwarding, if_pos host, ite_self]
    · by_cases hop : name ∈ hopByHop
      · rw [if_neg host, if_neg forwarding, if_pos hop, if_neg forwarding, if_neg (kept hop),
          if_neg host, if_neg forwarding, if_pos hop]
      · rw [if_neg host, if_neg forwarding, if_neg hop, if_neg forwarding, if_neg host,
          if_neg forwarding, if_neg hop]
        by_cases read : name ∈ readNames client
        · rw [if_pos (.inl read), if_pos read, ite_self]
        · rw [if_neg read]
          simp only [read, false_or]

/-- What a request for a resource says under each name. -/
theorem getAll_proxyResource {world : World} {req : Request} {client : Client}
    {out : OutRequest} {task : Task}
    (sent : proxy.proxyResource crates world req = .send client out task) (name : Str) :
    out.headers.getAll name = forwardedValues req.headers (fun _ => []) none [] name := by
  obtain ⟨parts, -, -, -, -, -, rfl, -⟩ := (proxyResource_eq_send crates proxy).mp sent
  exact getAll_prepareOutbound_eq req.headers none name

/-- What a request to the upstream says under each name. -/
theorem getAll_proxyUpstream {auth : Option Store} {req : Request} {conn : ConnInfo}
    {logout : Option Str} {client : Client} {out : OutRequest} {task : Task}
    (sent : proxy.proxyUpstream crates auth req conn logout = .send client out task)
    (name : Str) :
    out.headers.getAll name = forwardedValues req.headers (proxy.ownForwarding crates req conn)
      (upgradeType req.headers) (proxy.droppedHeaders auth req) name := by
  have headers : out.headers =
      if auth.isSome && isLoginPath req.path || isPlaybackInfoPath req.path then
        (proxy.clientHeaders crates req conn
          (prepareOutboundHeaders req.headers (upgradeType req.headers))).remove
            "accept-encoding".toList
      else proxy.clientHeaders crates req conn
        (prepareOutboundHeaders req.headers (upgradeType req.headers)) := by
    rw [proxyUpstream] at sent
    split at sent
    · cases sent
    · cases sent
      rfl
  have absent (name) (member : name ∈ forwardingHeaders) :
      (prepareOutboundHeaders req.headers (upgradeType req.headers)).getAll name = [] := by
    rw [getAll_prepareOutbound, if_pos (.inr member)]
  have apart : ∀ name ∈ hopByHop, name ∉ identityHeaders ∧ name ≠ "accept-encoding".toList := by
    decide
  have kept : name ∈ hopByHop → name ∉ proxy.droppedHeaders auth req := by
    intro hop member
    rcases List.mem_append.mp member with hidden | coding
    · split at hidden
      · exact (apart name hop).1 hidden
      · cases hidden
    · split at coding
      · exact (apart name hop).2 (List.mem_singleton.mp coding)
      · cases coding
  have coding : "accept-encoding".toList ∉ forwardingHeaders := by decide
  rw [forwardedValues_split _ _ _ _ kept, droppedHeaders, headers, ← getAll_prepareOutbound_eq]
  generalize prepareOutboundHeaders req.headers (upgradeType req.headers) = prepared at absent ⊢
  cases auth.isSome && isLoginPath req.path || isPlaybackInfoPath req.path with
  | false =>
      simp only [Bool.false_eq_true, if_false, List.append_nil]
      rw [getAll_clientHeaders crates proxy req conn absent]
      cases proxy.cfg.hideClient with
      | false => simp only [Bool.false_eq_true, false_and, if_false, List.not_mem_nil]
      | true => simp only [true_and, if_true]
  | true =>
      simp only [if_true]
      rw [HeaderMap.getAll_remove, getAll_clientHeaders crates proxy req conn absent]
      by_cases same : name = "accept-encoding".toList
      · rw [if_pos same, same, if_neg coding, if_pos (List.mem_append_right _ List.mem_cons_self)]
      · rw [if_neg same]
        simp only [List.mem_append, List.mem_singleton, same, or_false]
        cases proxy.cfg.hideClient with
        | false => simp only [Bool.false_eq_true, false_and, if_false, List.not_mem_nil]
        | true => simp only [true_and, if_true]

/-- What a client can make a forwarded request say is clean just when the proxy reads the
`Connection` values that matter. -/
theorem forwarded_headers_iff :
    (∀ auth req conn logout client out task,
      proxy.proxyUpstream crates auth req conn logout = .send client out task →
        (Clean req.headers (proxy.ownForwarding crates req conn) (upgradeType req.headers)
            (proxy.droppedHeaders auth req) out.headers ↔
          ReadsConnection req.headers (proxy.droppedHeaders auth req))) ∧
    ∀ world req client out task,
      proxy.proxyResource crates world req = .send client out task →
        (Clean req.headers (fun _ => []) none [] out.headers ↔
          ReadsConnection req.headers []) := by
  constructor
  · intro auth req conn logout client out task sent
    exact clean_iff (proxy.getAll_proxyUpstream crates sent)
  · intro world req client out task sent
    exact clean_iff (proxy.getAll_proxyResource crates sent)

/-- A request whose `Connection` value names a header of its own. -/
def secretRequest (connection : HeaderValue) : Request :=
  let request := Reference.request .get "/emby/System/Info" none [("x-secret", "1")]
  { request with headers := request.headers.insert "connection".toList connection }

/-- A header that a readable value names stays with the proxy. -/
theorem forwarded_headers_iff_close :
    let proxy := RouteProxy.new Reference.crates (Reference.config [] []) Reference.route none
    let req := secretRequest (encode "close, X-Secret".toList)
    ∃ client out task,
      proxy.proxyUpstream Reference.crates none req Reference.conn none =
          .send client out task ∧
        Clean req.headers (proxy.ownForwarding Reference.crates req Reference.conn) none []
          out.headers := by
  intro proxy req
  refine ⟨_, _, _, rfl, ?_⟩
  refine ((forwarded_headers_iff Reference.crates proxy).1 none req Reference.conn none _ _ _
    rfl).mpr ?_
  rintro name ⟨value, member, unread, -⟩
  have readable : ∀ value ∈ req.headers.getAll "connection".toList, value.toStr ≠ none := by
    decide +kernel
  exact absurd unread (readable value member)

/-- A header that a value with another octet names is passed on. -/
theorem unread_connection_header_passes :
    let proxy := RouteProxy.new Reference.crates (Reference.config [] []) Reference.route none
    let req := secretRequest (encode "x-secret,".toList ++ [0xFF])
    ∃ client out task,
      proxy.proxyUpstream Reference.crates none req Reference.conn none =
          .send client out task ∧
        ¬Clean req.headers (proxy.ownForwarding Reference.crates req Reference.conn)
          (upgradeType req.headers) (proxy.droppedHeaders none req) out.headers := by
  intro proxy req
  refine ⟨_, _, _, rfl, ?_⟩
  intro clean
  have listed : Listed req.headers "x-secret".toList :=
    ⟨encode "x-secret,".toList ++ [0xFF], by decide +kernel, by decide +kernel⟩
  have gone := clean.listed _ listed (by decide) (by decide)
  revert gone
  decide +kernel

end RouteProxy

end Proxemby
