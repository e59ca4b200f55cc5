import Proxemby.Lib.Integers
import Proxemby.Server.ClientFilter

/-!
# Client prefixes

`IpPrefix::parse` of `src/util.rs`, and which clients an accepted prefix contains.  A prefix
with a slash keeps the address as it is written, while `contains` unmaps the client first.
-/

namespace Proxemby

open Text

/-! ## Leading bits -/

section Leading

variable {w : Nat}

/-- The first bits of two words are the same. -/
def AgreeOn (bits : Nat) (x y : BitVec w) : Prop := ∀ i < bits, x.getMsbD i = y.getMsbD i

/-- The word with its first bits set. -/
def leading (w bits : Nat) : BitVec w :=
  if bits = 0 then 0 else BitVec.allOnes w <<< (w - bits)

theorem getMsbD_leading {bits : Nat} (fits : bits ≤ w) (i : Nat) :
    (leading w bits).getMsbD i = decide (i < bits) := by
  rw [leading]
  split
  · next zero => simp [zero]
  · rw [BitVec.getMsbD_shiftLeft, BitVec.getMsbD_allOnes]
    congr 1
    rw [eq_iff_iff]
    omega

theorem and_leading_self (x : BitVec w) : x &&& leading w w = x := by
  apply BitVec.eq_of_getMsbD_eq
  intro i inside
  simp [getMsbD_leading (Nat.le_refl w), inside]

theorem and_leading_eq_iff {bits : Nat} (fits : bits ≤ w) (x y : BitVec w) :
    x &&& leading w bits = y &&& leading w bits ↔ AgreeOn bits x y := by
  constructor
  · intro same i inside
    have bit := congrArg (fun word => word.getMsbD i) same
    simpa [getMsbD_leading fits, inside] using bit
  · intro agree
    apply BitVec.eq_of_getMsbD_eq
    intro i _
    rw [BitVec.getMsbD_and, BitVec.getMsbD_and, getMsbD_leading fits]
    by_cases inside : i < bits
    · rw [agree i inside]
    · simp [inside]

end Leading

namespace IpAddr

/-- The number of bits in an address. -/
def width : IpAddr → Nat
  | .v4 _ => 32
  | .v6 _ => 128

/-- An IPv6 address with an IPv4 address in it. -/
def IsMapped (addr : IpAddr) : Prop := addr.unmap.isIpv4 ≠ addr.isIpv4

/-- The IPv6 form of an IPv4 address. -/
def mapped (bits : BitVec 32) : IpAddr := .v6 ((0xFFFF#96 ++ bits).cast rfl)

/-- Two addresses of one family, with the same first bits. -/
def Agree (bits : Nat) : IpAddr → IpAddr → Prop
  | .v4 x, .v4 y => AgreeOn bits x y
  | .v6 x, .v6 y => AgreeOn bits x y
  | _, _ => False

variable {addr other : IpAddr} {bits : Nat}

theorem Agree.refl (bits : Nat) (addr : IpAddr) : addr.Agree bits addr := by
  cases addr <;> exact fun _ _ => rfl

@[simp] theorem isIpv4_mask (bits : Nat) (addr : IpAddr) :
    (addr.mask bits).isIpv4 = addr.isIpv4 := by
  cases addr <;> rfl

/-- Addresses of one family have one mask just when they agree. -/
theorem mask_eq_iff (fits : bits ≤ other.width) :
    addr.mask bits = other.mask bits ↔ addr.Agree bits other := by
  cases addr with
  | v4 x =>
      cases other with
      | v4 y => exact (v4.injEq _ _).to_iff.trans (and_leading_eq_iff fits x y)
      | v6 y => simp [mask, Agree]
  | v6 x =>
      cases other with
      | v4 y => simp [mask, Agree]
      | v6 y => exact (v6.injEq _ _).to_iff.trans (and_leading_eq_iff fits x y)

theorem Agree.isIpv4 (agree : addr.Agree bits other) : addr.isIpv4 = other.isIpv4 := by
  cases addr <;> cases other <;> first | rfl | exact agree.elim

/-- The mask of the full width changes nothing. -/
theorem mask_width (addr : IpAddr) : addr.mask addr.width = addr := by
  cases addr with
  | v4 x => exact congrArg v4 (and_leading_self x)
  | v6 x => exact congrArg v6 (and_leading_self x)

theorem unmap_mapped (x : BitVec 32) : (mapped x).unmap = .v4 x := by
  have high : (0xFFFF#96 ++ x).extractLsb' 32 96 = 0xFFFF#96 :=
    BitVec.extractLsb'_append_eq_left
  have low : (0xFFFF#96 ++ x).extractLsb' 0 32 = x := BitVec.extractLsb'_append_eq_right
  rw [mapped, unmap]
  exact (if_pos high).trans (congrArg v4 low)

theorem unmap_of_not_isMapped (plain : ¬addr.IsMapped) : addr.unmap = addr := by
  cases addr with
  | v4 x => rfl
  | v6 x =>
      rw [IsMapped, unmap] at plain
      rw [unmap]
      split at plain
      · next high => exact absurd (by simp [isIpv4]) plain
      · next high => exact if_neg high

end IpAddr

/-! ## Reading a prefix -/

section Parse

variable (ip : IpText) (quote : Str → Str)

/-- A network or an address; `quote` is the debug form of a string. -/
def IpPrefix.parse (value : Str) : Except Str IpPrefix :=
  match splitOnce '/' value with
  | some (addr, bits) =>
      match ip.parse addr with
      | none => .error ("ParseAddr(".toList ++ quote addr ++ "): invalid IP address".toList)
      | some addr =>
          let max := if addr.isIpv4 then 32 else 128
          match (readU8 bits).filter (· ≤ max) with
          | none =>
              .error ("netip.ParsePrefix(".toList ++ quote value ++
                "): bad bits after slash".toList)
          | some bits => .ok { addr := addr.mask bits, bits }
  | none =>
      match ip.parse value with
      | none => .error ("ParseAddr(".toList ++ quote value ++ "): invalid IP address".toList)
      | some addr =>
          let addr := addr.unmap
          .ok { addr, bits := if addr.isIpv4 then 32 else 128 }

/-- What is written in a prefix: an address, and the length behind the slash. -/
structure Written where
  addr : IpAddr
  slash : Option Nat
  deriving DecidableEq

/-- The parts of a text that are the address and the length. -/
def written (value : Str) : Option Written :=
  match splitOnce '/' value with
  | some (addr, bits) =>
      (ip.parse addr).bind fun addr => (readU8 bits).map fun bits => ⟨addr, some bits⟩
  | none => (ip.parse value).map fun addr => ⟨addr, none⟩

end Parse

namespace Written

/-- The number of bits, of the unmapped address, that a client must have. -/
def bits (net : Written) : Nat :=
  match net.slash with
  | none => net.addr.unmap.width
  | some bits => if net.addr.unmap.isIpv4 = net.addr.isIpv4 then bits else bits - 96

/-- A mapped address, written with a slash. -/
def MappedNet (net : Written) : Prop := net.slash.isSome = true ∧ net.addr.IsMapped

/-- The network with its length in the address that is written. -/
def InRange (net : Written) : Prop := ∀ bits, net.slash = some bits → net.addr.IsMapped → 96 ≤ bits

end Written

/-- A prefix contains the clients that it denotes, its own address, and a client in either
form or in none. -/
structure IpPrefix.Denotes (network : IpPrefix) (net : Written) : Prop where
  agree : ∀ addr, network.contains addr = true ↔ addr.unmap.Agree net.bits net.addr.unmap
  own : network.contains net.addr = true
  forms : ∀ bits, network.contains (.v4 bits) = network.contains (IpAddr.mapped bits)

theorem contains_mask_iff {addr client : IpAddr} {bits : Nat} (fits : bits ≤ addr.width) :
    IpPrefix.contains ⟨addr.mask bits, bits⟩ client = true ↔ client.unmap.Agree bits addr := by
  rw [IpPrefix.contains]
  dsimp only
  rw [IpAddr.isIpv4_mask]
  split
  · next other =>
      simp only [Bool.false_eq_true, false_iff]
      exact fun agree => other agree.isIpv4
  · rw [decide_eq_true_eq, IpAddr.mask_eq_iff fits]

section Parsed

variable {ip : IpText} {quote : Str → Str} {value : Str} {network : IpPrefix}

/-- An accepted prefix is made of what is written, which is unmapped without a slash only. -/
theorem parse_written (accepted : IpPrefix.parse ip quote value = .ok network) :
    ∃ net, written ip value = some net ∧
      ((net.slash = none ∧ network = ⟨net.addr.unmap.mask net.bits, net.bits⟩ ∧
          net.bits = net.addr.unmap.width) ∨
        ∃ bits, net.slash = some bits ∧ bits ≤ net.addr.width ∧
          network = ⟨net.addr.mask bits, bits⟩) := by
  rw [IpPrefix.parse] at accepted
  rw [written]
  split at accepted
  · next addrText bitsText _ =>
      split at accepted
      · cases accepted
      · next addr addrParsed =>
          dsimp only at accepted
          split at accepted
          · cases accepted
          · next bits bitsParsed =>
              cases accepted
              obtain ⟨read, fits⟩ := Option.filter_eq_some_iff.mp bitsParsed
              refine ⟨⟨addr, some bits⟩, by simp [addrParsed, read], .inr ⟨bits, rfl, ?_, rfl⟩⟩
              cases addr <;> simpa [IpAddr.isIpv4, IpAddr.width] using fits
  · split at accepted
    · cases accepted
    · next addr addrParsed =>
        cases accepted
        refine ⟨⟨addr, none⟩, by simp [addrParsed], .inl ⟨rfl, ?_, rfl⟩⟩
        have width : (if addr.unmap.isIpv4 = true then 32 else 128) = addr.unmap.width := by
          cases addr.unmap <;> rfl
        change _ = IpPrefix.mk (addr.unmap.mask addr.unmap.width) addr.unmap.width
        rw [width, IpAddr.mask_width]

/-- A prefix denotes what is written unless a mapped address is written with a slash. -/
theorem prefix_denotes_iff (accepted : IpPrefix.parse ip quote value = .ok network) :
    ∃ net, written ip value = some net ∧
      (net.InRange → (network.Denotes net ↔ ¬net.MappedNet)) := by
  obtain ⟨net, read, made⟩ := parse_written accepted
  refine ⟨net, read, fun _ => ?_⟩
  have denotes (agree : ∀ addr, network.contains addr = true ↔
      addr.unmap.Agree net.bits net.addr.unmap) : network.Denotes net := by
    refine ⟨agree, (agree net.addr).mpr (.refl _ _), fun bits => ?_⟩
    rw [Bool.eq_iff_iff, agree, agree, IpAddr.unmap_mapped]
    rfl
  rcases made with ⟨noSlash, rfl, bits⟩ | ⟨bits, slash, fits, rfl⟩
  · refine iff_of_true (denotes fun addr => contains_mask_iff (Nat.le_of_eq bits)) ?_
    intro mapped
    simp [Written.MappedNet, noSlash] at mapped
  · by_cases isMapped : net.addr.IsMapped
    · refine iff_of_false (fun denotes => ?_) (not_not_intro ⟨by simp [slash], isMapped⟩)
      have own := (contains_mask_iff fits).mp denotes.own
      exact isMapped own.isIpv4
    · refine iff_of_true (denotes fun addr => ?_) fun mapped => isMapped mapped.2
      have plain := IpAddr.unmap_of_not_isMapped isMapped
      have same : net.bits = bits := by
        rw [Written.bits, slash]
        exact if_pos (congrArg IpAddr.isIpv4 plain)
      rw [contains_mask_iff fits, plain, same]

end Parsed

/-- Addresses as they are written in two prefixes. -/
def sampleText : IpText where
  parse text :=
    if text = "192.168.0.1".toList then some (.v4 0xC0A80001#32)
    else if text = "::ffff:192.168.0.0".toList then some (IpAddr.mapped 0xC0A80000#32)
    else none
  display _ := []

/-- A network contains the mapped form of its address. -/
theorem prefix_denotes_iff_network :
    ∃ network, IpPrefix.parse sampleText id "192.168.0.1/24".toList = .ok network ∧
      network.contains (IpAddr.mapped 0xC0A80001#32) = true := by
  refine ⟨⟨.v4 0xC0A80000#32, 24⟩, by decide, ?_⟩
  obtain ⟨net, read, iff⟩ := @prefix_denotes_iff sampleText id "192.168.0.1/24".toList
    ⟨.v4 0xC0A80000#32, 24⟩ (by decide)
  obtain rfl : ⟨.v4 0xC0A80001#32, some 24⟩ = net :=
    Option.some.inj (Eq.trans (by decide) read)
  have plain : ¬(IpAddr.v4 0xC0A80001#32).IsMapped := fun isMapped => isMapped rfl
  have denotes := (iff fun _ _ isMapped => absurd isMapped plain).mpr
    fun mapped => plain mapped.2
  exact (denotes.forms 0xC0A80001#32).symm.trans denotes.own

/-- A network of mapped addresses does not contain its own address. -/
theorem mapped_network_empty :
    ∃ network net, IpPrefix.parse sampleText id "::ffff:192.168.0.0/112".toList = .ok network ∧
      written sampleText "::ffff:192.168.0.0/112".toList = some net ∧ net.InRange ∧
      network.contains net.addr = false ∧ ¬network.Denotes net := by
  have outside : IpPrefix.contains ⟨IpAddr.mapped 0xC0A80000#32, 112⟩
      (IpAddr.mapped 0xC0A80000#32) = false := by decide
  refine ⟨⟨IpAddr.mapped 0xC0A80000#32, 112⟩, ⟨IpAddr.mapped 0xC0A80000#32, some 112⟩,
    by decide, by decide, ?_, outside, fun denotes => ?_⟩
  · rintro bits slash -
    obtain rfl := Option.some.inj slash
    decide
  · have own := denotes.own
    rw [outside] at own
    cases own

end Proxemby
