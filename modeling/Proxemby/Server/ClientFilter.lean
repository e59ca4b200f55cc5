import Proxemby.Http

/-!
# Client addresses

`src/server/client_filter.rs` and the address helpers of `src/util.rs`: where a
request comes from, and whether such a client may use the proxy.  The text form of
addresses is that of the standard library and is a parameter.
-/

namespace Proxemby

open Text

inductive IpAddr where
  | v4 (bits : BitVec 32)
  | v6 (bits : BitVec 128)
  deriving DecidableEq

/-- The text form of IP addresses. -/
structure IpText where
  parse : Str → Option IpAddr
  display : IpAddr → Str

namespace IpAddr

def isIpv4 : IpAddr → Bool
  | .v4 _ => true
  | .v6 _ => false

/-- The IPv4 address of an IPv4-mapped IPv6 address, `::ffff:a.b.c.d`. -/
def unmap : IpAddr → IpAddr
  | .v4 bits => .v4 bits
  | .v6 bits =>
      if bits.extractLsb' 32 96 = 0xFFFF#96 then .v4 (bits.extractLsb' 0 32) else .v6 bits

/-- The leading bits of an address, with the rest zero. -/
def mask (bits : Nat) : IpAddr → IpAddr
  | .v4 raw =>
      let m := if bits = 0 then 0 else BitVec.allOnes 32 <<< (32 - bits)
      .v4 (raw &&& m)
  | .v6 raw =>
      let m := if bits = 0 then 0 else BitVec.allOnes 128 <<< (128 - bits)
      .v6 (raw &&& m)

end IpAddr

/-- An IP network, or a single address. -/
structure IpPrefix where
  addr : IpAddr
  bits : Nat
  deriving DecidableEq

def IpPrefix.contains (network : IpPrefix) (addr : IpAddr) : Bool :=
  let addr := addr.unmap
  if addr.isIpv4 ≠ network.addr.isIpv4 then false
  else addr.mask network.bits = network.addr

/-- The connection a request arrived on. -/
structure ConnInfo where
  remote : IpAddr
  tls : Bool
  deriving DecidableEq

def firstForwardedFor (raw : Str) : Str := trim (raw.takeWhile (· ≠ ','))

variable (ip : IpText)

/-- A client address in a header, unmapped. -/
def parseClientAddr (raw : Str) : Option IpAddr :=
  let raw := trim raw
  if raw = [] then none else (ip.parse raw).map IpAddr.unmap

def headerStr (headers : HeaderMap) (name : String) : Option Str :=
  (headers.get name.toList).bind HeaderValue.toStr

/-- The client address: that of a trusted proxy header, else of the connection. -/
def clientAddr (headers : HeaderMap) (conn : ConnInfo) (trustProxyHeaders : Bool) : IpAddr :=
  let forwarded :=
    ((headerStr headers "x-forwarded-for").map firstForwardedFor).bind (parseClientAddr ip)
  let realIp := (headerStr headers "x-real-ip").bind (parseClientAddr ip)
  if trustProxyHeaders then (forwarded <|> realIp).getD conn.remote else conn.remote

def isAllowed (allowed : List IpPrefix) (addr : IpAddr) : Bool :=
  allowed.any fun network => network.contains addr

example : (IpPrefix.mk (.v4 0xC0A80000#32) 24).contains (.v6 0xFFFFC0A80007#128) = true := by
  decide

end Proxemby
