import Mathlib.Data.Nat.Bitwise
import FontisRemote.Lib.Checked
import FontisRemote.Lib.LittleEndian

/-!
# Mangled addresses

Addresses go through the rendezvous server with the time added to them (`AddrMangle`), so that no router on
the way finds its own addresses in a packet. The fields of the number that an IPv4 address becomes do not
reach into each other, so that decoding gives the address back (`decode_encode`). Decoding subtracts the
time again, and bytes that nobody encoded may hold a time greater than what it is subtracted from:
`decode_isSome_iff` says which bytes are decoded.

Numbers of the type `u128` are natural numbers here, all that are shifted or added stay far below `2^128`.
A subtraction that would go below zero, or a slice out of range, is `none`: a panic where these are checked,
and a wrapped number in a release build.
-/

namespace FontisRemote.Transport

open FontisRemote.Lib

/-- The octets of an address. -/
abbrev Octets (n : Nat) : Type := { octets : List UInt8 // octets.length = n }

/-- `try_into().unwrap_or_default()` -/
def Octets.ofSlice (n : Nat) (bytes : List UInt8) : Octets n :=
  if h : bytes.length = n then ⟨bytes, h⟩ else ⟨List.replicate n 0, List.length_replicate⟩

theorem Octets.ofSlice_of_length {n : Nat} {bytes : List UInt8} (h : bytes.length = n) :
    Octets.ofSlice n bytes = ⟨bytes, h⟩ := dif_pos h

inductive IpAddr
  | v4 (octets : Octets 4)
  | v6 (octets : Octets 16)
deriving DecidableEq

structure SocketAddr where
  ip : IpAddr
  port : UInt16
deriving DecidableEq

/-- `Ipv6Addr::to_ipv4`: of `::a.b.c.d` and `::ffff:a.b.c.d`. -/
def toIpv4 (octets : Octets 16) : Option (Octets 4) :=
  if octets.1.take 10 = List.replicate 10 0 ∧
      ((octets.1.drop 10).take 2 = [0, 0] ∨ (octets.1.drop 10).take 2 = [0xff, 0xff]) then
    some ⟨octets.1.drop 12, by rw [List.length_drop, octets.2]⟩
  else none

/-- `Ipv6Addr::is_loopback` -/
def isLoopback (octets : Octets 16) : Bool := decide (octets.1 = List.replicate 15 0 ++ [1])

def tryIntoV4 (addr : SocketAddr) : SocketAddr :=
  match addr.ip with
  | .v6 octets =>
    if isLoopback octets then addr
    else
      match toIpv4 octets with
      | some v4 => ⟨.v4 v4, addr.port⟩
      | none => addr
  | .v4 _ => addr

namespace AddrMangle

/-- The number that an IPv4 address becomes. -/
def mangled (ip tm port : Nat) : Nat :=
  ((ip + tm) <<< 49) ||| (tm <<< 17) ||| (port + (tm &&& 0xFFFF))

/-- `tm` is the clock, in microseconds as `u32`. -/
def encode (tm : UInt32) (addr : SocketAddr) : List UInt8 :=
  let addr := tryIntoV4 addr
  match addr.ip with
  | .v4 octets =>
    let bytes := leBytes 16 (mangled (ofLeBytes octets.1) tm.toNat addr.port.toNat)
    let nPadding := (bytes.reverse.takeWhile (· == 0)).length
    bytes.take (16 - nPadding)
  | .v6 octets => octets.1 ++ leBytes 2 addr.port.toNat

/-- `Config::get_any_listen_addr(false)` -/
def anyListenAddr : SocketAddr := ⟨.v6 ⟨List.replicate 16 0, rfl⟩, 0⟩

def decode (bytes : List UInt8) : Option SocketAddr :=
  if 16 < bytes.length then
    if bytes.length ≠ 18 then some anyListenAddr
    else do
      let port ← slice bytes 16 bytes.length
      let ip ← slice bytes 0 16
      some ⟨.v6 (.ofSlice 16 ip), UInt16.ofNat (ofLeBytes (Octets.ofSlice 2 port).1)⟩
  else do
    let rest ← slice (List.replicate 16 0) bytes.length 16
    let number := ofLeBytes (bytes ++ rest)
    let tm := (number >>> 17) &&& 0xFFFFFFFF
    let ip ← checkedSub (number >>> 49) tm
    let port ← checkedSub (number &&& 0xFFFFFF) (tm &&& 0xFFFF)
    some ⟨.v4 ⟨leBytes 4 ip, length_leBytes 4 ip⟩, UInt16.ofNat port⟩

/-! ## The fields of the number -/

section Fields

theorem mangled_eq {ip tm port : Nat} (htm : tm < 2 ^ 32) (hport : port < 2 ^ 16) :
    mangled ip tm port = (ip + tm) * 2 ^ 49 + (tm * 2 ^ 17 + (port + tm % 2 ^ 16)) := by
  have hlow : port + tm % 2 ^ 16 < 2 ^ 17 := by omega
  have hmid : tm <<< 17 + (port + tm % 2 ^ 16) < 2 ^ 49 := by
    rw [Nat.shiftLeft_eq]
    omega
  have hmask : tm &&& 0xFFFF = tm % 2 ^ 16 := Nat.and_two_pow_sub_one_eq_mod tm 16
  rw [mangled, hmask, Nat.or_assoc, ← Nat.shiftLeft_add_eq_or_of_lt hlow,
    ← Nat.shiftLeft_add_eq_or_of_lt hmid, Nat.shiftLeft_eq, Nat.shiftLeft_eq]

/-- The field of the time in a number. -/
def timeOf (number : Nat) : Nat := number / 2 ^ 17 % 2 ^ 32

/-- Up to sixteen bytes are decoded by the fields of their number. -/
theorem decode_short {bytes : List UInt8} (h : bytes.length ≤ 16) :
    decode bytes =
      (checkedSub (ofLeBytes bytes / 2 ^ 49) (timeOf (ofLeBytes bytes))).bind fun ip =>
        (checkedSub (ofLeBytes bytes % 2 ^ 24) (timeOf (ofLeBytes bytes) % 2 ^ 16)).map fun port =>
          ⟨.v4 ⟨leBytes 4 ip, length_leBytes 4 ip⟩, UInt16.ofNat port⟩ := by
  have hrest : slice (List.replicate 16 (0 : UInt8)) bytes.length 16 = some (List.replicate (16 - bytes.length) 0) := by
    rw [slice_of_le h (by rw [List.length_replicate]), List.take_replicate, List.drop_replicate, Nat.min_self]
  have htime : (ofLeBytes bytes >>> 17) &&& 0xFFFFFFFF = timeOf (ofLeBytes bytes) := by
    rw [Nat.shiftRight_eq_div_pow]
    exact Nat.and_two_pow_sub_one_eq_mod _ 32
  have hport : ofLeBytes bytes &&& 0xFFFFFF = ofLeBytes bytes % 2 ^ 24 :=
    Nat.and_two_pow_sub_one_eq_mod _ 24
  have hlow : timeOf (ofLeBytes bytes) &&& 0xFFFF = timeOf (ofLeBytes bytes) % 2 ^ 16 :=
    Nat.and_two_pow_sub_one_eq_mod _ 16
  rw [decode, if_neg (by omega), hrest]
  simp only [Option.bind_eq_bind, Option.bind_some, ofLeBytes_append_zeros, htime, hport, hlow]
  rw [Nat.shiftRight_eq_div_pow]
  cases checkedSub (ofLeBytes bytes / 2 ^ 49) (timeOf (ofLeBytes bytes)) with
  | none => rfl
  | some ip => cases checkedSub (ofLeBytes bytes % 2 ^ 24) (timeOf (ofLeBytes bytes) % 2 ^ 16) <;> rfl

theorem decode_long {bytes : List UInt8} (h : 16 < bytes.length) : (decode bytes).isSome = true := by
  rw [decode, if_pos h]
  split
  · rfl
  · rename_i hlen
    rw [slice_of_le (by omega) (Nat.le_refl _), slice_of_le (Nat.zero_le _) (by omega)]
    rfl

end Fields

/-! ## Round trip -/

section RoundTrip

variable (tm : UInt32)

theorem decode_encode_v4 (octets : Octets 4) (port : UInt16) :
    decode (encode tm ⟨.v4 octets, port⟩) = some ⟨.v4 octets, port⟩ := by
  obtain ⟨octets, hlen⟩ := octets
  have hip : ofLeBytes octets < 2 ^ 32 := by
    have h := ofLeBytes_lt octets
    rwa [hlen] at h
  have htm : tm.toNat < 2 ^ 32 := tm.toNat_lt
  have hport : port.toNat < 2 ^ 16 := port.toNat_lt
  have hnumber : mangled (ofLeBytes octets) tm.toNat port.toNat = _ := mangled_eq htm hport
  generalize hn : mangled (ofLeBytes octets) tm.toNat port.toNat = n at hnumber
  have hencode : ofLeBytes (encode tm ⟨.v4 ⟨octets, hlen⟩, port⟩) = n := by
    have htrim := ofLeBytes_trim (leBytes 16 n)
    rw [length_leBytes, ofLeBytes_leBytes_of_lt (by omega)] at htrim
    rw [← hn] at htrim ⊢
    exact htrim
  have hshort : (encode tm ⟨.v4 ⟨octets, hlen⟩, port⟩).length ≤ 16 := by
    have h := List.length_take_le' (16 - ((leBytes 16 n).reverse.takeWhile (· == 0)).length) (leBytes 16 n)
    rw [length_leBytes, ← hn] at h
    exact h
  have hhigh : n / 2 ^ 17 = (ofLeBytes octets + tm.toNat) * 2 ^ 32 + tm.toNat := by omega
  have htime : timeOf n = tm.toNat := by
    rw [timeOf, hhigh]
    omega
  rw [decode_short hshort, hencode, htime, checkedSub_of_le (by omega), Option.bind_some,
    checkedSub_of_le (by omega), Option.map_some]
  have hback : leBytes 4 (n / 2 ^ 49 - tm.toNat) = octets := by
    have h : n / 2 ^ 49 - tm.toNat = ofLeBytes octets := by omega
    have hbytes := leBytes_ofLeBytes octets
    rwa [hlen, ← h] at hbytes
  have hport' : UInt16.ofNat (n % 2 ^ 24 - tm.toNat % 2 ^ 16) = port := by
    apply UInt16.toNat_inj.1
    rw [UInt16.toNat_ofNat']
    omega
  rw [hport']
  congr 3
  exact Subtype.ext hback

theorem decode_v6 (octets : Octets 16) (port : UInt16) :
    decode (octets.1 ++ leBytes 2 port.toNat) = some ⟨.v6 octets, port⟩ := by
  obtain ⟨octets, hlen⟩ := octets
  have hport : port.toNat < 256 ^ 2 := port.toNat_lt
  have hall : (octets ++ leBytes 2 port.toNat).length = 18 := by
    rw [List.length_append, hlen, length_leBytes]
  have hslice : slice (octets ++ leBytes 2 port.toNat) 16 18 = some (leBytes 2 port.toNat) := by
    rw [slice_of_le (by omega) (by omega), List.take_of_length_le (by omega), List.drop_left' hlen]
  have hslice' : slice (octets ++ leBytes 2 port.toNat) 0 16 = some octets := by
    rw [slice_of_le (by omega) (by omega), List.take_left' hlen, List.drop_zero]
  rw [decode, hall, if_pos (by omega), if_neg (by omega), hslice, hslice']
  rw [Option.bind_eq_bind, Option.bind_some, Option.bind_some,
    Octets.ofSlice_of_length hlen, Octets.ofSlice_of_length (length_leBytes 2 _),
    ofLeBytes_leBytes_of_lt hport, UInt16.ofNat_toNat]

/-- Decoding an encoded address gives its address and port, an IPv4 address where it stands for one. -/
theorem decode_encode (addr : SocketAddr) : decode (encode tm addr) = some (tryIntoV4 addr) := by
  unfold encode
  obtain ⟨ip, port⟩ := tryIntoV4 addr
  cases ip with
  | v4 octets => exact decode_encode_v4 tm octets port
  | v6 octets => exact decode_v6 octets port

end RoundTrip

/-! ## Bytes that nobody encoded -/

section Untrusted

theorem checkedSub_isSome {a b : Nat} : (checkedSub a b).isSome = true ↔ b ≤ a := by
  unfold checkedSub
  split <;> simp_all

/-- The bits of the time that lie in the port's mask make up for its low half, unless they are zero. -/
theorem port_not_below (number : Nat) :
    timeOf number % 2 ^ 16 ≤ number % 2 ^ 24 ↔
      (timeOf number % 128 = 0 → timeOf number % 2 ^ 16 ≤ number % 2 ^ 17) := by
  have hmask : number % 2 ^ 24 = number % 2 ^ 17 + 2 ^ 17 * (timeOf number % 128) := by
    unfold timeOf
    omega
  omega

/-- Bytes are decoded without a subtraction below zero or a slice out of range unless there are at most
sixteen and in their number the field of the time is above what stands in front of it, or, being a multiple
of 128, has a low half above the lowest 17 bits. -/
theorem decode_isSome_iff (bytes : List UInt8) :
    (decode bytes).isSome = true ↔ 16 < bytes.length ∨
      timeOf (ofLeBytes bytes) ≤ ofLeBytes bytes / 2 ^ 49 ∧
      (timeOf (ofLeBytes bytes) % 128 = 0 →
        timeOf (ofLeBytes bytes) % 2 ^ 16 ≤ ofLeBytes bytes % 2 ^ 17) := by
  by_cases hlong : 16 < bytes.length
  · exact ⟨fun _ => .inl hlong, fun _ => decode_long hlong⟩
  · have hport := port_not_below (ofLeBytes bytes)
    rw [decode_short (by omega), ← hport, ← checkedSub_isSome, ← checkedSub_isSome]
    cases checkedSub (ofLeBytes bytes / 2 ^ 49) (timeOf (ofLeBytes bytes)) with
    | none => simp [hlong]
    | some ip => simp [hlong]

/-- The three bytes `00 00 02`: a time of one and nothing above it. -/
theorem time_above_address : ¬ ∀ bytes : List UInt8, (decode bytes).isSome = true := by
  intro h
  exact absurd (h [0, 0, 2]) (by decide)

end Untrusted

end AddrMangle

end FontisRemote.Transport
