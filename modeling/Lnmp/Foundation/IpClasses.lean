import Lnmp.Foundation.IpAddress

/-!
# Classes of addresses

The properties of Python's `ipaddress` objects that follow the registries of special addresses:
`is_link_local`, `is_private` and `is_global`. An IPv4 address in an IPv6 address (`ipv4_mapped`)
has the properties `is_private` and `is_global` of the IPv4 address.

An address is global when it is neither private nor in the shared space `100.64.0.0/10`. Loopback,
link-local and unspecified addresses are private. Reserved IPv4 addresses are private too; a
multicast address and a reserved IPv6 address can be global.
-/

set_option autoImplicit false
set_option relaxedAutoImplicit false

namespace Lnmp.Foundation.IpAddress.Address

/-- `ipv4_mapped`. -/
def ipv4Mapped : Address → Option Address
  | .v4 _ => none
  | .v6 value => if value / 2 ^ 32 = 0xFFFF then some (.v4 (value % 2 ^ 32)) else none

/-- The address itself, or the IPv4 address that it maps. -/
def unmapped (address : Address) : Address := address.ipv4Mapped.getD address

/-- `is_link_local`: 169.254.0.0/16 and fe80::/10. -/
def isLinkLocal : Address → Bool
  | .v4 value => value / 2 ^ 16 = 0xA9FE
  | .v6 value => value / 2 ^ 118 = 0x3FA

/-- The address is in 100.64.0.0/10. -/
def isShared : Address → Bool
  | .v4 value => value / 2 ^ 22 = 0x191
  | .v6 _ => false

/-- `is_private` of an IPv4 address: 0.0.0.0/8, 10.0.0.0/8, 127.0.0.0/8, 169.254.0.0/16,
172.16.0.0/12, 192.0.0.0/24 without 192.0.0.9 and 192.0.0.10, 192.0.2.0/24, 192.168.0.0/16,
198.18.0.0/15, 198.51.100.0/24, 203.0.113.0/24 and 240.0.0.0/4. -/
def isPrivateV4 (value : ℕ) : Bool :=
  value / 2 ^ 24 = 0 ∨ value / 2 ^ 24 = 10 ∨ value / 2 ^ 24 = 127 ∨ value / 2 ^ 16 = 0xA9FE ∨
    value / 2 ^ 20 = 0xAC1 ∨
    (value / 2 ^ 8 = 0xC00000 ∧ value ≠ 0xC0000009 ∧ value ≠ 0xC000000A) ∨
    value / 2 ^ 8 = 0xC00002 ∨ value / 2 ^ 16 = 0xC0A8 ∨ value / 2 ^ 17 = 0x6309 ∨
    value / 2 ^ 8 = 0xC63364 ∨ value / 2 ^ 8 = 0xCB0071 ∨ value / 2 ^ 28 = 0xF

/-- The address is in 2001::/23, but not one of 2001:1::1, 2001:1::2, 2001:3::/32, 2001:4:112::/48,
2001:20::/28 and 2001:30::/28. -/
def isProtocolAssignment (value : ℕ) : Bool :=
  value / 2 ^ 105 = 0x100080 ∧ value ≠ 0x20010001000000000000000000000001 ∧
    value ≠ 0x20010001000000000000000000000002 ∧ value / 2 ^ 96 ≠ 0x20010003 ∧
    value / 2 ^ 80 ≠ 0x200100040112 ∧ value / 2 ^ 100 ≠ 0x2001002 ∧ value / 2 ^ 100 ≠ 0x2001003

/-- `is_private` of an IPv6 address that maps no IPv4 address: ::, ::1, 64:ff9b:1::/48, 100::/64,
the protocol assignments, 2001:db8::/32, 2002::/16, fc00::/7 and fe80::/10. -/
def isPrivateV6 (value : ℕ) : Bool :=
  value = 0 ∨ value = 1 ∨ value / 2 ^ 80 = 0x64FF9B0001 ∨ value / 2 ^ 64 = 0x100000000000000 ∨
    isProtocolAssignment value ∨ value / 2 ^ 96 = 0x20010DB8 ∨ value / 2 ^ 112 = 0x2002 ∨
    value / 2 ^ 121 = 0x7E ∨ value / 2 ^ 118 = 0x3FA

/-- `is_private`. -/
def isPrivate (address : Address) : Bool :=
  match address.unmapped with
  | .v4 value => isPrivateV4 value
  | .v6 value => isPrivateV6 value

/-- `is_global`. -/
def isGlobal (address : Address) : Bool := !address.unmapped.isShared && !address.isPrivate

variable {address : Address}

theorem ipv4Mapped_unmapped (address : Address) : address.unmapped.ipv4Mapped = none := by
  rw [unmapped]
  cases hmapped : address.ipv4Mapped with
  | none => exact hmapped
  | some mapped =>
    cases address with
    | v4 value => cases hmapped
    | v6 value =>
      rw [ipv4Mapped, Option.ite_none_right_eq_some] at hmapped
      obtain rfl := Option.some.inj hmapped.2
      rfl

theorem unmapped_unmapped (address : Address) : address.unmapped.unmapped = address.unmapped := by
  conv_lhs => rw [unmapped, ipv4Mapped_unmapped]
  rfl

/-- What is true of the private ranges of an unmapped address is true of it when it is private. -/
theorem isPrivate_of_ranges {property : Address → Bool}
    (hv4 : ∀ value, property (.v4 value) → isPrivateV4 value)
    (hv6 : ∀ value, property (.v6 value) → isPrivateV6 value)
    (hproperty : property address.unmapped) : address.isPrivate := by
  rw [isPrivate]
  cases hunmapped : address.unmapped with
  | v4 value => exact hv4 value (hunmapped ▸ hproperty)
  | v6 value => exact hv6 value (hunmapped ▸ hproperty)

theorem isPrivate_of_isLoopback (hloopback : address.unmapped.isLoopback) : address.isPrivate := by
  refine isPrivate_of_ranges (fun value hvalue ↦ ?_) (fun value hvalue ↦ ?_) hloopback
  · have hvalue : value / 2 ^ 24 = 127 := of_decide_eq_true hvalue
    exact decide_eq_true (Or.inr (Or.inr (Or.inl hvalue)))
  · have hvalue : value = 1 := of_decide_eq_true hvalue
    exact decide_eq_true (Or.inr (Or.inl hvalue))

theorem isPrivate_of_isLinkLocal (hlocal : address.unmapped.isLinkLocal) : address.isPrivate := by
  refine isPrivate_of_ranges (fun value hvalue ↦ ?_) (fun value hvalue ↦ ?_) hlocal
  · have hvalue : value / 2 ^ 16 = 0xA9FE := of_decide_eq_true hvalue
    exact decide_eq_true (Or.inr (Or.inr (Or.inr (Or.inl hvalue))))
  · have hvalue : value / 2 ^ 118 = 0x3FA := of_decide_eq_true hvalue
    refine decide_eq_true ?_
    iterate 8 refine Or.inr ?_
    exact hvalue

theorem isPrivate_of_isUnspecified (hunspecified : address.unmapped.isUnspecified) :
    address.isPrivate := by
  refine isPrivate_of_ranges (fun value hvalue ↦ ?_) (fun value hvalue ↦ ?_) hunspecified
  · obtain rfl : value = 0 := of_decide_eq_true hvalue
    decide
  · have hvalue : value = 0 := of_decide_eq_true hvalue
    exact decide_eq_true (Or.inl hvalue)

theorem not_isPrivate_of_isGlobal (hglobal : address.isGlobal) : address.isPrivate = false := by
  rw [isGlobal, Bool.and_eq_true] at hglobal
  simpa using hglobal.2

theorem not_isShared_of_isGlobal (hglobal : address.isGlobal) :
    address.unmapped.isShared = false := by
  rw [isGlobal, Bool.and_eq_true] at hglobal
  simpa using hglobal.1

end Lnmp.Foundation.IpAddress.Address
