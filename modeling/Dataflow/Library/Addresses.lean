import Mathlib.Data.List.Basic

/-!
# Addresses

IP addresses of either version and the networks they lie in. An address is a list of bytes, four or
sixteen; an IPv4 address may also be written in sixteen, behind a prefix of its own.

* `IP.to4`, `IPNet.contains`: the IPv4 form of an address, and membership in a network.
* `IP.isLoopback`, … — the kinds of addresses that no route on the internet leads to.
* `IP.GloballyRoutable`: an address of none of these kinds.
* `exists_bytes_of_to4`, `equal_iff_of_to4`: an address by its version.
-/

namespace Dataflow.Library.Addresses

open List Option

/-- `net.IP`. -/
abbrev IP := List (BitVec 8)

/-- `net.IPMask`. -/
abbrev IPMask := List (BitVec 8)

namespace IP

/-- `net.IP.To4`: the four bytes of an IPv4 address, also of one that is mapped into IPv6. -/
def to4 (ip : IP) : Option IP :=
  if ip.length = 4 then some ip
  else if ip.length = 16 ∧ ip.take 10 = replicate 10 0 ∧ (ip.drop 10).take 2 = [255, 255] then
    some (ip.drop 12)
  else none

/-- `net.IP.Equal`. -/
def equal (ip x : IP) : Bool := ip.to4.getD ip == x.to4.getD x

/-- `net.IP.IsUnspecified`. -/
def isUnspecified (ip : IP) : Bool := ip.equal [0, 0, 0, 0] || ip.equal (replicate 16 0)

/-- `net.IP.IsLoopback`. -/
def isLoopback (ip : IP) : Bool :=
  match ip.to4 with
  | some x => x.head? == some 127
  | none => ip.equal (replicate 15 0 ++ [1])

/-- `net.IP.IsPrivate`. -/
def isPrivate (ip : IP) : Bool :=
  match ip.to4 with
  | some x =>
    x[0]? == some 10 || (x[0]? == some 172 && x[1]?.map (· &&& 0xf0) == some 16) ||
      (x[0]? == some 192 && x[1]? == some 168)
  | none => ip.length == 16 && ip.head?.map (· &&& 0xfe) == some 0xfc

/-- `net.IP.IsMulticast`. -/
def isMulticast (ip : IP) : Bool :=
  match ip.to4 with
  | some x => x.head?.map (· &&& 0xf0) == some 0xe0
  | none => ip.length == 16 && ip.head? == some 0xff

/-- `net.IP.IsLinkLocalUnicast`. -/
def isLinkLocalUnicast (ip : IP) : Bool :=
  match ip.to4 with
  | some x => x[0]? == some 169 && x[1]? == some 254
  | none => ip.length == 16 && ip[0]? == some 0xfe && ip[1]?.map (· &&& 0xc0) == some 0x80

/-- An address of none of these five kinds; a registry of addresses knows more that are not global. -/
def GloballyRoutable (ip : IP) : Prop :=
  ip.isLoopback = false ∧ ip.isPrivate = false ∧ ip.isLinkLocalUnicast = false ∧
    ip.isMulticast = false ∧ ip.isUnspecified = false

instance (ip : IP) : Decidable ip.GloballyRoutable :=
  inferInstanceAs (Decidable (_ ∧ _ ∧ _ ∧ _ ∧ _))

end IP

/-! ## Networks -/

/-- `net.IPNet`. -/
structure IPNet where
  ip : IP
  mask : IPMask

/-- `net.CIDRMask` for a number of bytes. -/
def cidrMask (ones : ℕ) : (bytes : ℕ) → IPMask
  | 0 => []
  | bytes + 1 =>
    (if ones ≥ 8 then 255 else ~~~((255 : BitVec 8) >>> ones)) :: cidrMask (ones - 8) bytes

/-- The bytes of an address under a mask. -/
def masked (ip : IP) (mask : IPMask) : IP := List.zipWith (· &&& ·) ip mask

/-- The network of an address in four or sixteen bytes and of a number of leading bits, as
`net.ParseCIDR` returns it. -/
def cidr (ip : IP) (ones : ℕ) : IPNet where
  ip := masked ip (cidrMask ones ip.length)
  mask := cidrMask ones ip.length

/-- `net.IPNet.Contains`, where the address and the mask of the network have one length. -/
def IPNet.contains (n : IPNet) (ip : IP) : Bool :=
  let ip := ip.to4.getD ip
  ip.length == n.ip.length && masked ip n.mask == masked n.ip n.mask

/-! ## The two versions -/

variable {ip : IP}

theorem length_of_to4 {x : IP} (h : ip.to4 = some x) : x.length = 4 := by
  unfold IP.to4 at h
  split_ifs at h with h4 h16
  · obtain rfl := some.inj h
    exact h4
  · obtain rfl := some.inj h
    rw [length_drop, h16.1]

/-- Only an address in sixteen bytes has no IPv4 form, or one of no version. -/
theorem length_ne_four (h : ip.to4 = none) : ip.length ≠ 4 := by
  intro hlength
  simp [IP.to4, if_pos hlength] at h

/-- An IPv4 address, by its bytes. -/
theorem exists_bytes_of_to4 {x : IP} (h : ip.to4 = some x) : ∃ a b c d, x = [a, b, c, d] := by
  match x, length_of_to4 h with
  | [a, b, c, d], _ => exact ⟨a, b, c, d, rfl⟩

/-- A mask of ones keeps a byte. -/
@[simp] theorem and_ones (b : BitVec 8) : b &&& 255#8 = b := BitVec.and_allOnes

/-- What is equal to an address without an IPv4 form has none. -/
theorem equal_iff_of_to4 {x : IP} (h : ip.to4 = none) (hx : x.to4 = none) :
    ip.equal x = true ↔ ip = x := by
  simp [IP.equal, h, hx]

theorem isUnspecified_iff_of_to4 {x : IP} (h : ip.to4 = some x) :
    ip.isUnspecified = true ↔ x = [0, 0, 0, 0] := by
  have hfour : ip.equal [0, 0, 0, 0] = true ↔ x = [0, 0, 0, 0] := by
    rw [IP.equal, h, beq_iff_eq]
    rfl
  have hsix : ip.equal (replicate 16 0) = false := by
    rw [IP.equal, h, beq_eq_false_iff_ne]
    intro heq
    have hlength := congrArg List.length heq
    rw [getD_some, length_of_to4 h] at hlength
    exact absurd hlength (by decide)
  rw [IP.isUnspecified, hsix, Bool.or_false, hfour]

theorem isUnspecified_iff_of_none (h : ip.to4 = none) :
    ip.isUnspecified = true ↔ ip = replicate 16 0 := by
  have hfour : ip.equal [0, 0, 0, 0] = false := by
    rw [IP.equal, h, beq_eq_false_iff_ne]
    intro heq
    exact length_ne_four h (congrArg List.length heq)
  rw [IP.isUnspecified, hfour, Bool.false_or, equal_iff_of_to4 h (by decide)]

end Dataflow.Library.Addresses
