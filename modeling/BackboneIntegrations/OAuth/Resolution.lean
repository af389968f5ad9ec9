import BackboneIntegrations.Codec.Cidr
import BackboneIntegrations.OAuth.Ports

/-!
# The DNS resolution guard

Octet and segment tests on one side, address blocks on the other.
-/

namespace BackboneIntegrations.OAuth

open Codec

/-! ## Addresses -/

structure Ipv4Addr where
  o0 : UInt8
  o1 : UInt8
  o2 : UInt8
  o3 : UInt8
  deriving DecidableEq, Repr

structure Ipv6Addr where
  s0 : UInt16
  s1 : UInt16
  s2 : UInt16
  s3 : UInt16
  s4 : UInt16
  s5 : UInt16
  s6 : UInt16
  s7 : UInt16
  deriving DecidableEq, Repr

inductive IpAddr where
  | v4 (ip : Ipv4Addr)
  | v6 (ip : Ipv6Addr)
  deriving DecidableEq, Repr

namespace Ipv4Addr

def isLoopback (ip : Ipv4Addr) : Bool := ip.o0 == 127

def isPrivate (ip : Ipv4Addr) : Bool :=
  ip.o0 == 10 || (ip.o0 == 172 && 16 ≤ ip.o1 && ip.o1 ≤ 31) || (ip.o0 == 192 && ip.o1 == 168)

def isLinkLocal (ip : Ipv4Addr) : Bool := ip.o0 == 169 && ip.o1 == 254

def isUnspecified (ip : Ipv4Addr) : Bool := ip == ⟨0, 0, 0, 0⟩

def isMulticast (ip : Ipv4Addr) : Bool := 224 ≤ ip.o0 && ip.o0 ≤ 239

def isBroadcast (ip : Ipv4Addr) : Bool := ip == ⟨255, 255, 255, 255⟩

def display (ip : Ipv4Addr) : String := s!"{ip.o0}.{ip.o1}.{ip.o2}.{ip.o3}"

end Ipv4Addr

namespace Ipv6Addr

def segments (ip : Ipv6Addr) : List UInt16 :=
  [ip.s0, ip.s1, ip.s2, ip.s3, ip.s4, ip.s5, ip.s6, ip.s7]

def isLoopback (ip : Ipv6Addr) : Bool := ip == ⟨0, 0, 0, 0, 0, 0, 0, 1⟩

def isUnspecified (ip : Ipv6Addr) : Bool := ip == ⟨0, 0, 0, 0, 0, 0, 0, 0⟩

def isMulticast (ip : Ipv6Addr) : Bool := ip.s0 &&& 0xff00 == 0xff00

/-- The IPv4 address in an address of the form `::ffff:a.b.c.d`. -/
def toIpv4Mapped : Ipv6Addr → Option Ipv4Addr
  | ⟨0, 0, 0, 0, 0, 0xffff, s6, s7⟩ =>
    some ⟨(s6 >>> 8).toUInt8, s6.toUInt8, (s7 >>> 8).toUInt8, s7.toUInt8⟩
  | _ => none

/-- Where the first longest run of zero segments starts, and its length. -/
def longestZeroes (segments : List UInt16) : Nat × Nat :=
  (segments.zipIdx.foldl (fun (longest, current) (segment, i) =>
    if segment == 0 then
      let current := (if current.2 == 0 then i else current.1, current.2 + 1)
      (if longest.2 < current.2 then current else longest, current)
    else (longest, (0, 0))) (((0, 0), (0, 0)) : (Nat × Nat) × (Nat × Nat))).1

def hexSegments (segments : List UInt16) : String :=
  ":".intercalate (segments.map fun s => String.ofList (Nat.toDigits 16 s.toNat))

def display (ip : Ipv6Addr) : String :=
  match ip.toIpv4Mapped with
  | some v4 => "::ffff:" ++ v4.display
  | none =>
    let (start, len) := longestZeroes ip.segments
    if 1 < len then
      hexSegments (ip.segments.take start) ++ "::" ++ hexSegments (ip.segments.drop (start + len))
    else hexSegments ip.segments

end Ipv6Addr

def IpAddr.display : IpAddr → String
  | .v4 ip => ip.display
  | .v6 ip => ip.display

example : (Ipv6Addr.mk 0x2607 0xf8b0 0x4005 0x80a 0 0 0 0x200e).display = "2607:f8b0:4005:80a::200e" := by
  decide

/-! ## The guard -/

def ipv4IsPublic (ip : Ipv4Addr) : Bool :=
  !(ip.isLoopback || ip.isPrivate || ip.isLinkLocal || ip.isUnspecified || ip.isMulticast
    || ip.isBroadcast
    -- Carrier-grade NAT.
    || (ip.o0 == 100 && ip.o1 &&& 0b11000000 == 0b01000000))

def ipv6IsPublic (ip : Ipv6Addr) : Bool :=
  !(ip.isLoopback || ip.isUnspecified || ip.isMulticast
    || ip.s0 &&& 0xffc0 == 0xfe80
    || ip.s0 &&& 0xfe00 == 0xfc00)

def ipIsPublic : IpAddr → Bool
  | .v4 ip => ipv4IsPublic ip
  | .v6 ip =>
    match ip.toIpv4Mapped with
    | some mapped => ipv4IsPublic mapped
    | none => ipv6IsPublic ip

def forbiddenAddress (host : String) (ip : IpAddr) : TransportFailure :=
  ⟨.endpointGuard, s!"{host} resolves to forbidden address {ip.display}"⟩

/-- `answer` is what the resolver says for the host. -/
def assertPublicResolution (host : String) (answer : Except String (List IpAddr)) :
    Except TransportFailure (List IpAddr) :=
  match answer with
  | .error e => .error ⟨.endpointGuard, s!"resolving {host}: {e}"⟩
  | .ok resolved =>
    if resolved.isEmpty then .error ⟨.endpointGuard, s!"resolving {host}: no addresses"⟩
    else
      match resolved.find? (!ipIsPublic ·) with
      | some ip => .error (forbiddenAddress host ip)
      | none => .ok resolved

/-! ## The forbidden blocks -/

def Ipv4Addr.bits (ip : Ipv4Addr) : BitVec 32 :=
  ip.o0.toBitVec ++ ip.o1.toBitVec ++ (ip.o2.toBitVec ++ ip.o3.toBitVec)

def Ipv6Addr.bits (ip : Ipv6Addr) : BitVec 128 :=
  (ip.s0.toBitVec ++ ip.s1.toBitVec ++ ip.s2.toBitVec ++ ip.s3.toBitVec ++ ip.s4.toBitVec
    ++ ip.s5.toBitVec : BitVec 96) ++ (ip.s6.toBitVec ++ ip.s7.toBitVec : BitVec 32)

def Ipv4Addr.block (ip : Ipv4Addr) (len : Nat) : Cidr 32 := ⟨ip.bits, len⟩

def Ipv6Addr.block (ip : Ipv6Addr) (len : Nat) : Cidr 128 := ⟨ip.bits, len⟩

def forbiddenV4 : List (Cidr 32) :=
  [Ipv4Addr.block ⟨127, 0, 0, 0⟩ 8, Ipv4Addr.block ⟨10, 0, 0, 0⟩ 8,
    Ipv4Addr.block ⟨172, 16, 0, 0⟩ 12, Ipv4Addr.block ⟨192, 168, 0, 0⟩ 16,
    Ipv4Addr.block ⟨169, 254, 0, 0⟩ 16, Ipv4Addr.block ⟨100, 64, 0, 0⟩ 10,
    Ipv4Addr.block ⟨224, 0, 0, 0⟩ 4, Ipv4Addr.block ⟨0, 0, 0, 0⟩ 32,
    Ipv4Addr.block ⟨255, 255, 255, 255⟩ 32]

def forbiddenV6 : List (Cidr 128) :=
  [Ipv6Addr.block ⟨0, 0, 0, 0, 0, 0, 0, 1⟩ 128, Ipv6Addr.block ⟨0, 0, 0, 0, 0, 0, 0, 0⟩ 128,
    Ipv6Addr.block ⟨0xfe80, 0, 0, 0, 0, 0, 0, 0⟩ 10, Ipv6Addr.block ⟨0xfc00, 0, 0, 0, 0, 0, 0, 0⟩ 7,
    Ipv6Addr.block ⟨0xff00, 0, 0, 0, 0, 0, 0, 0⟩ 8]

/-- The first 96 bits of `::ffff:0:0`. -/
def mappedPrefix : BitVec 96 := 0xffff

/-- The address lies in a forbidden block, or in a forbidden IPv4 block in mapped form. -/
def Forbidden : IpAddr → Prop
  | .v4 ip => ∃ b ∈ forbiddenV4, b.Contains ip.bits
  | .v6 ip => (∃ b ∈ forbiddenV4, (b.under mappedPrefix).Contains ip.bits) ∨
      ∃ b ∈ forbiddenV6, b.Contains ip.bits

/-! ## IPv4: octets and blocks -/

namespace Ipv4Addr

theorem toNat_bits (ip : Ipv4Addr) :
    ip.bits.toNat = ip.o0.toNat * 2 ^ 24 + ip.o1.toNat * 2 ^ 16 + ip.o2.toNat * 2 ^ 8 + ip.o3.toNat := by
  unfold bits
  simp only [Codec.toNat_append, UInt8.toNat_toBitVec]
  omega

variable {ip : Ipv4Addr}

theorem contains_iff {net : Ipv4Addr} {len : Nat} :
    (net.block len).Contains ip.bits ↔
      ip.bits.toNat / 2 ^ (32 - len) = net.bits.toNat / 2 ^ (32 - len) :=
  Cidr.contains_iff

theorem toNat_o0 (ip : Ipv4Addr) : ip.bits.toNat / 2 ^ 24 = ip.o0.toNat := by
  have h1 := ip.o1.toNat_lt
  have h2 := ip.o2.toNat_lt
  have h3 := ip.o3.toNat_lt
  rw [toNat_bits]
  omega

theorem toNat_o1 (ip : Ipv4Addr) : ip.bits.toNat / 2 ^ 16 = ip.o0.toNat * 256 + ip.o1.toNat := by
  have h2 := ip.o2.toNat_lt
  have h3 := ip.o3.toNat_lt
  rw [toNat_bits]
  omega

theorem bits_inj {ip net : Ipv4Addr} : ip.bits.toNat = net.bits.toNat ↔ ip = net := by
  constructor
  · intro h
    have hip := ip.o3.toNat_lt
    have hnet := net.o3.toNat_lt
    have h2 := ip.o2.toNat_lt
    have h2' := net.o2.toNat_lt
    have h1 := ip.o1.toNat_lt
    have h1' := net.o1.toNat_lt
    rw [toNat_bits, toNat_bits] at h
    have hall : ip.o0.toNat = net.o0.toNat ∧ ip.o1.toNat = net.o1.toNat ∧
        ip.o2.toNat = net.o2.toNat ∧ ip.o3.toNat = net.o3.toNat := by omega
    obtain ⟨e0, e1, e2, e3⟩ := hall
    cases ip
    cases net
    simp_all [UInt8.toNat_inj]
  · rintro rfl
    rfl

theorem contains_one {net : Ipv4Addr} : (net.block 32).Contains ip.bits ↔ ip = net := by
  rw [contains_iff, Nat.sub_self, Nat.pow_zero, Nat.div_one, Nat.div_one, bits_inj]

theorem contains_two {a b : UInt8} :
    (block ⟨a, b, 0, 0⟩ 16).Contains ip.bits ↔ ip.o0 = a ∧ ip.o1 = b := by
  have h1 := ip.o1.toNat_lt
  have hb := b.toNat_lt
  rw [contains_iff, toNat_o1, toNat_o1, ← UInt8.toNat_inj, ← UInt8.toNat_inj]
  show _ = a.toNat * 256 + b.toNat ↔ _
  omega

theorem contains_first {a : UInt8} : (block ⟨a, 0, 0, 0⟩ 8).Contains ip.bits ↔ ip.o0 = a := by
  rw [contains_iff, toNat_o0, toNat_o0, UInt8.toNat_inj]

theorem contains_within {a b : UInt8} {len : Nat} (h8 : 8 ≤ len) (h16 : len ≤ 16) :
    (block ⟨a, b, 0, 0⟩ len).Contains ip.bits ↔
      ip.o0 = a ∧ ip.o1.toNat / 2 ^ (16 - len) = b.toNat / 2 ^ (16 - len) := by
  have hcut : 32 - len = 16 + (16 - len) := by omega
  have hpow : 256 = 2 ^ (len - 8) * 2 ^ (16 - len) := by
    rw [← Nat.pow_add, show len - 8 + (16 - len) = 8 by omega]
  -- The cut lies inside the second octet, so the first one is compared whole.
  have hsplit : ∀ n m : Nat, (n * 256 + m) / 2 ^ (16 - len) = n * 2 ^ (len - 8) + m / 2 ^ (16 - len) := by
    intro n m
    rw [hpow, ← Nat.mul_assoc, Nat.add_comm, Nat.add_mul_div_right _ _ (Nat.two_pow_pos _), Nat.add_comm]
  have hbound : ∀ x : UInt8, x.toNat / 2 ^ (16 - len) < 2 ^ (len - 8) := by
    intro x
    exact Nat.div_lt_of_lt_mul (by rw [Nat.mul_comm, ← hpow]; exact x.toNat_lt)
  rw [contains_iff, hcut, Nat.pow_add, ← Nat.div_div_eq_div_mul, ← Nat.div_div_eq_div_mul, toNat_o1,
    toNat_o1]
  show _ = (a.toNat * 256 + b.toNat) / _ ↔ _
  rw [hsplit, hsplit, ← UInt8.toNat_inj]
  constructor
  · intro h
    have h0 : ip.o0.toNat = a.toNat := by
      rw [← Cidr.mul_add_div ip.o0.toNat (hbound ip.o1), h, Cidr.mul_add_div a.toNat (hbound b)]
    rw [h0] at h
    exact ⟨h0, Nat.add_left_cancel h⟩
  · rintro ⟨h0, h1⟩
    rw [h0, h1]

theorem isPrivate_iff :
    ip.isPrivate ↔ (block ⟨10, 0, 0, 0⟩ 8).Contains ip.bits ∨
      (block ⟨172, 16, 0, 0⟩ 12).Contains ip.bits ∨ (block ⟨192, 168, 0, 0⟩ 16).Contains ip.bits := by
  rw [contains_first, contains_within (by decide) (by decide), contains_two]
  simp only [isPrivate, Bool.or_eq_true, Bool.and_eq_true, beq_iff_eq, decide_eq_true_eq,
    UInt8.le_iff_toNat_le, or_assoc, and_assoc]
  have hsecond : (16 : UInt8).toNat ≤ ip.o1.toNat ∧ ip.o1.toNat ≤ (31 : UInt8).toNat ↔
      ip.o1.toNat / 2 ^ (16 - 12) = (16 : UInt8).toNat / 2 ^ (16 - 12) := by
    show 16 ≤ _ ∧ _ ≤ 31 ↔ _ = 16 / 16
    omega
  rw [hsecond]

theorem isMulticast_iff : ip.isMulticast ↔ (block ⟨224, 0, 0, 0⟩ 4).Contains ip.bits := by
  have hcut : ∀ n, n / 2 ^ (32 - 4) = n / 2 ^ 24 / 2 ^ 4 := by omega
  have h0 := ip.o0.toNat_lt
  rw [contains_iff, hcut, hcut, toNat_o0, toNat_o0]
  simp only [isMulticast, Bool.and_eq_true, decide_eq_true_eq, UInt8.le_iff_toNat_le]
  show 224 ≤ _ ∧ _ ≤ 239 ↔ _ = 224 / 16
  omega

theorem carrierGrade_iff :
    ip.o0 = 100 ∧ ip.o1 &&& 0b11000000 = 0b01000000 ↔ (block ⟨100, 64, 0, 0⟩ 10).Contains ip.bits := by
  have hmask : (ip.o1 &&& 0b11000000).toNat = ip.o1.toNat / 64 * 64 := toNat_and_high ip.o1.toBitVec 6
  have hsecond : ip.o1.toNat / 64 * 64 = 64 ↔ ip.o1.toNat / 64 = 64 / 64 := by omega
  rw [contains_within (by decide) (by decide)]
  apply and_congr_right
  intro _
  rw [← UInt8.toNat_inj, hmask]
  exact hsecond

end Ipv4Addr

/-- The octet tests of `ipv4_is_public` are the nine blocks. -/
theorem ipv4IsPublic_iff {ip : Ipv4Addr} :
    ipv4IsPublic ip ↔ ¬ ∃ b ∈ forbiddenV4, b.Contains ip.bits := by
  unfold ipv4IsPublic
  rw [Bool.not_eq_true', ← Bool.not_eq_true]
  apply not_congr
  simp only [Bool.or_eq_true, forbiddenV4, List.exists_mem_cons_iff, List.not_mem_nil, false_and,
    exists_false, or_false, Ipv4Addr.isPrivate_iff, Ipv4Addr.isMulticast_iff,
    Ipv4Addr.carrierGrade_iff, Ipv4Addr.isLoopback, Ipv4Addr.isLinkLocal, Ipv4Addr.isUnspecified,
    Ipv4Addr.isBroadcast, Ipv4Addr.contains_first, Ipv4Addr.contains_two, Ipv4Addr.contains_one,
    beq_iff_eq, Bool.and_eq_true]
  simp only [or_assoc, or_comm, or_left_comm]

/-! ## IPv6: segments and blocks -/

namespace Ipv6Addr

/-- The first 96 bits. -/
def high (ip : Ipv6Addr) : BitVec 96 :=
  ip.s0.toBitVec ++ ip.s1.toBitVec ++ ip.s2.toBitVec ++ ip.s3.toBitVec ++ ip.s4.toBitVec
    ++ ip.s5.toBitVec

/-- The last 32 bits. -/
def low (ip : Ipv6Addr) : BitVec 32 := ip.s6.toBitVec ++ ip.s7.toBitVec

theorem toNat_high (ip : Ipv6Addr) :
    ip.high.toNat = ip.s0.toNat * 2 ^ 80 + ip.s1.toNat * 2 ^ 64 + ip.s2.toNat * 2 ^ 48 +
      ip.s3.toNat * 2 ^ 32 + ip.s4.toNat * 2 ^ 16 + ip.s5.toNat := by
  unfold high
  simp only [Codec.toNat_append, UInt16.toNat_toBitVec]
  omega

theorem toNat_low (ip : Ipv6Addr) : ip.low.toNat = ip.s6.toNat * 2 ^ 16 + ip.s7.toNat := by
  unfold low
  simp only [Codec.toNat_append, UInt16.toNat_toBitVec]

theorem toNat_bits (ip : Ipv6Addr) : ip.bits.toNat = ip.high.toNat * 2 ^ 32 + ip.low.toNat :=
  Codec.toNat_append ip.high ip.low

variable {ip net : Ipv6Addr}

theorem bits_inj : ip.bits.toNat = net.bits.toNat ↔ ip = net := by
  constructor
  · intro h
    have hlow := ip.low.isLt
    have hlow' := net.low.isLt
    rw [toNat_bits, toNat_bits] at h
    -- The two halves are the digits of a number in base 2^64, and their segments digits in base 2^16.
    have hparts : ip.high.toNat = net.high.toNat ∧ ip.low.toNat = net.low.toNat := by omega
    obtain ⟨hhigh, hlow⟩ := hparts
    rw [toNat_high, toNat_high] at hhigh
    rw [toNat_low, toNat_low] at hlow
    have hlt : ∀ s : UInt16, s.toNat < 2 ^ 16 := fun s => s.toNat_lt
    have h1 := hlt ip.s1
    have h1' := hlt net.s1
    have h2 := hlt ip.s2
    have h2' := hlt net.s2
    have h3 := hlt ip.s3
    have h3' := hlt net.s3
    have h4 := hlt ip.s4
    have h4' := hlt net.s4
    have h5 := hlt ip.s5
    have h5' := hlt net.s5
    have h7 := hlt ip.s7
    have h7' := hlt net.s7
    have hsegments : ip.s0.toNat = net.s0.toNat ∧ ip.s1.toNat = net.s1.toNat ∧
        ip.s2.toNat = net.s2.toNat ∧ ip.s3.toNat = net.s3.toNat ∧ ip.s4.toNat = net.s4.toNat ∧
        ip.s5.toNat = net.s5.toNat ∧ ip.s6.toNat = net.s6.toNat ∧ ip.s7.toNat = net.s7.toNat := by
      omega
    simp only [UInt16.toNat_inj] at hsegments
    obtain ⟨e0, e1, e2, e3, e4, e5, e6, e7⟩ := hsegments
    cases ip
    simp_all
  · rintro rfl
    rfl

theorem contains_iff {len : Nat} :
    (net.block len).Contains ip.bits ↔
      ip.bits.toNat / 2 ^ (128 - len) = net.bits.toNat / 2 ^ (128 - len) :=
  Cidr.contains_iff

theorem contains_one : (net.block 128).Contains ip.bits ↔ ip = net := by
  rw [contains_iff, Nat.sub_self, Nat.pow_zero, Nat.div_one, Nat.div_one, bits_inj]

theorem toNat_s0 (ip : Ipv6Addr) : ip.bits.toNat / 2 ^ 112 = ip.s0.toNat := by
  have hlow := ip.low.isLt
  have hlt : ∀ s : UInt16, s.toNat < 2 ^ 16 := fun s => s.toNat_lt
  have h1 := hlt ip.s1
  have h2 := hlt ip.s2
  have h3 := hlt ip.s3
  have h4 := hlt ip.s4
  have h5 := hlt ip.s5
  rw [toNat_bits, toNat_high]
  omega

theorem contains_first {len : Nat} (h16 : len ≤ 16) :
    (net.block len).Contains ip.bits ↔
      ip.s0.toNat / 2 ^ (16 - len) = net.s0.toNat / 2 ^ (16 - len) := by
  have hcut : 128 - len = 112 + (16 - len) := by omega
  rw [contains_iff, hcut, Nat.pow_add, ← Nat.div_div_eq_div_mul, ← Nat.div_div_eq_div_mul, toNat_s0,
    toNat_s0]

theorem mask_iff {s mask a : UInt16} {k : Nat} (hmask : mask.toBitVec = BitVec.allOnes 16 <<< k)
    (ha : a.toNat = a.toNat / 2 ^ k * 2 ^ k) :
    s &&& mask = a ↔ s.toNat / 2 ^ k = a.toNat / 2 ^ k := by
  have hand : (s &&& mask).toNat = s.toNat / 2 ^ k * 2 ^ k := by
    rw [← UInt16.toNat_toBitVec, UInt16.toBitVec_and, hmask, toNat_and_high, UInt16.toNat_toBitVec]
  rw [← UInt16.toNat_inj, hand]
  constructor
  · intro h
    rw [← h, Nat.mul_div_cancel _ (Nat.two_pow_pos k)]
  · intro h
    rw [h, ← ha]

theorem isMulticast_iff : ip.isMulticast ↔ (block ⟨0xff00, 0, 0, 0, 0, 0, 0, 0⟩ 8).Contains ip.bits := by
  rw [contains_first (by decide), isMulticast, beq_iff_eq]
  exact mask_iff (by decide) (by decide)

theorem linkLocal_iff :
    ip.s0 &&& 0xffc0 = 0xfe80 ↔ (block ⟨0xfe80, 0, 0, 0, 0, 0, 0, 0⟩ 10).Contains ip.bits := by
  rw [contains_first (by decide)]
  exact mask_iff (by decide) (by decide)

theorem uniqueLocal_iff :
    ip.s0 &&& 0xfe00 = 0xfc00 ↔ (block ⟨0xfc00, 0, 0, 0, 0, 0, 0, 0⟩ 7).Contains ip.bits := by
  rw [contains_first (by decide)]
  exact mask_iff (by decide) (by decide)

end Ipv6Addr

theorem ipv6IsPublic_iff {ip : Ipv6Addr} :
    ipv6IsPublic ip ↔ ¬ ∃ b ∈ forbiddenV6, b.Contains ip.bits := by
  unfold ipv6IsPublic
  rw [Bool.not_eq_true', ← Bool.not_eq_true]
  apply not_congr
  simp only [Bool.or_eq_true, forbiddenV6, List.exists_mem_cons_iff, List.not_mem_nil, false_and,
    exists_false, or_false, Ipv6Addr.isMulticast_iff, Ipv6Addr.isLoopback, Ipv6Addr.isUnspecified,
    Ipv6Addr.contains_one, beq_iff_eq, Ipv6Addr.linkLocal_iff, Ipv6Addr.uniqueLocal_iff]
  simp only [or_assoc, or_comm, or_left_comm]

/-! ## The mapped form -/

namespace Ipv6Addr

variable {ip : Ipv6Addr}

theorem high_eq_iff :
    ip.high = mappedPrefix ↔
      ip.s0 = 0 ∧ ip.s1 = 0 ∧ ip.s2 = 0 ∧ ip.s3 = 0 ∧ ip.s4 = 0 ∧ ip.s5 = 0xffff := by
  have hlt : ∀ s : UInt16, s.toNat < 2 ^ 16 := fun s => s.toNat_lt
  have h1 := hlt ip.s1
  have h2 := hlt ip.s2
  have h3 := hlt ip.s3
  have h4 := hlt ip.s4
  have h5 := hlt ip.s5
  rw [← BitVec.toNat_inj, toNat_high]
  simp only [← UInt16.toNat_inj]
  -- The prefix as a sum of segments: all but the last one are zero.
  show _ = 0xffff ↔ _ = 0 ∧ _ = 0 ∧ _ = 0 ∧ _ = 0 ∧ _ = 0 ∧ _ = 0xffff
  omega

theorem toIpv4Mapped_some {v4 : Ipv4Addr} (h : ip.toIpv4Mapped = some v4) :
    ip.high = mappedPrefix ∧ ip.low = v4.bits := by
  unfold toIpv4Mapped at h
  split at h
  · rename_i s6 s7
    obtain rfl := Option.some.inj h
    refine ⟨high_eq_iff.2 ⟨rfl, rfl, rfl, rfl, rfl, rfl⟩, ?_⟩
    apply BitVec.eq_of_toNat_eq
    have h6 := s6.toNat_lt
    have h7 := s7.toNat_lt
    rw [toNat_low, Ipv4Addr.toNat_bits]
    simp only [UInt16.toNat_toUInt8, UInt16.toNat_shiftRight, Nat.shiftRight_eq_div_pow]
    show _ = s6.toNat / 2 ^ 8 % 256 * _ + _ + s7.toNat / 2 ^ 8 % 256 * _ + _
    omega
  · contradiction

theorem toIpv4Mapped_none (h : ip.toIpv4Mapped = none) : ip.high ≠ mappedPrefix := by
  intro hhigh
  obtain ⟨s0, s1, s2, s3, s4, s5, s6, s7⟩ := ip
  obtain ⟨e0, e1, e2, e3, e4, e5⟩ := high_eq_iff.1 hhigh
  simp only at e0 e1 e2 e3 e4 e5
  subst e0 e1 e2 e3 e4 e5
  simp [toIpv4Mapped] at h

end Ipv6Addr

theorem forbiddenV4_len : ∀ b ∈ forbiddenV4, b.len ≤ 32 := by decide

theorem under_iff {ip : Ipv6Addr} :
    (∃ b ∈ forbiddenV4, (b.under mappedPrefix).Contains ip.bits) ↔
      ip.high = mappedPrefix ∧ ∃ b ∈ forbiddenV4, b.Contains ip.low := by
  constructor
  · rintro ⟨b, hb, h⟩
    obtain ⟨hhigh, hlow⟩ := (Cidr.contains_under (forbiddenV4_len b hb)).1 h
    exact ⟨hhigh, b, hb, hlow⟩
  · rintro ⟨hhigh, b, hb, hlow⟩
    exact ⟨b, hb, (Cidr.contains_under (forbiddenV4_len b hb)).2 ⟨hhigh, hlow⟩⟩

theorem mapped_not_v6 {ip : Ipv6Addr} (hhigh : ip.high = mappedPrefix) :
    ¬ ∃ b ∈ forbiddenV6, b.Contains ip.bits := by
  obtain ⟨h0, -, -, -, -, h5⟩ := Ipv6Addr.high_eq_iff.1 hhigh
  rw [← ipv6IsPublic_iff]
  have hne : ∀ s6 s7, ip ≠ ⟨0, 0, 0, 0, 0, 0, s6, s7⟩ := by
    rintro s6 s7 rfl
    exact absurd (show (0 : UInt16) = 0xffff from h5) (by decide)
  simp [ipv6IsPublic, Ipv6Addr.isLoopback, Ipv6Addr.isUnspecified, Ipv6Addr.isMulticast, hne, h0]

theorem ipIsPublic_iff (ip : IpAddr) : ipIsPublic ip ↔ ¬ Forbidden ip := by
  cases ip with
  | v4 ip => exact ipv4IsPublic_iff
  | v6 ip =>
    simp only [ipIsPublic, Forbidden, under_iff]
    split
    · rename_i mapped hmapped
      -- A mapped address is in no IPv6 block, and in an IPv4 block exactly as the address that it
      -- maps.
      obtain ⟨hhigh, hlow⟩ := Ipv6Addr.toIpv4Mapped_some hmapped
      have hv6 := mapped_not_v6 hhigh
      rw [ipv4IsPublic_iff, hlow]
      simp only [hhigh, hv6, true_and, or_false]
    · rename_i hmapped
      have hhigh := Ipv6Addr.toIpv4Mapped_none hmapped
      rw [ipv6IsPublic_iff]
      simp only [hhigh, false_and, false_or]

/-! ## The whole answer -/

theorem assertPublicResolution_ok {host : String} {answer : Except String (List IpAddr)}
    {r : List IpAddr} :
    assertPublicResolution host answer = .ok r ↔
      answer = .ok r ∧ r ≠ [] ∧ ∀ ip ∈ r, ipIsPublic ip := by
  unfold assertPublicResolution
  split
  · simp
  · rename_i resolved
    split
    · rename_i hempty
      rw [List.isEmpty_iff] at hempty
      constructor
      · intro h
        contradiction
      · rintro ⟨h, hne, -⟩
        exact absurd (Except.ok.inj h ▸ hempty) hne
    · rename_i hempty
      rw [List.isEmpty_iff] at hempty
      split
      -- Some address of the answer is forbidden, and the guard names it.
      · rename_i ip hfind
        constructor
        · intro h
          contradiction
        · rintro ⟨h, -, hall⟩
          obtain rfl := Except.ok.inj h
          have hpublic := hall ip (List.mem_of_find?_eq_some hfind)
          have hforbidden := List.find?_some hfind
          simp [hpublic] at hforbidden
      · rename_i hfind
        rw [List.find?_eq_none] at hfind
        constructor
        · intro h
          obtain rfl := Except.ok.inj h
          refine ⟨rfl, hempty, ?_⟩
          intro ip hip
          simpa using hfind ip hip
        · rintro ⟨h, -, -⟩
          exact congrArg _ (Except.ok.inj h)

/-- The guard returns exactly the non-empty answers outside the forbidden blocks, unchanged. -/
theorem public_resolution (host : String) (answer : Except String (List IpAddr)) (r : List IpAddr) :
    assertPublicResolution host answer = .ok r ↔
      answer = .ok r ∧ r ≠ [] ∧ ∀ ip ∈ r, ¬ Forbidden ip := by
  rw [assertPublicResolution_ok]
  simp only [ipIsPublic_iff]

end BackboneIntegrations.OAuth
