import Lnmp.Foundation.IpAddress

/-!
# Textual IP networks

`ipNetwork` is the parser of Python's `ipaddress.ip_network`: an address, and behind a slash the
length of the prefix or, for IPv4, a netmask or a hostmask. It is `none` on the text that the parser
rejects, which is also the text of a network with a host bit set.
-/

set_option autoImplicit false
set_option relaxedAutoImplicit false

namespace Lnmp.Foundation.IpAddress

open PythonText

/-- The two families of addresses. -/
inductive Family
  | v4
  | v6
  deriving DecidableEq

/-- `max_prefixlen`. -/
def Family.bits : Family → ℕ
  | .v4 => 32
  | .v6 => 128

/-- A network: the bits of its address behind the prefix are zero. -/
structure Network where
  family : Family
  networkAddress : ℕ
  prefixlen : ℕ
  prefixlen_le : prefixlen ≤ family.bits
  hostBits_eq_zero : networkAddress % 2 ^ (family.bits - prefixlen) = 0
  deriving DecidableEq

/-- The address in the network: of the same family, and with its prefix. -/
def Network.contains (network : Network) : Address → Bool
  | .v4 value => network.family = .v4 ∧
      value / 2 ^ (32 - network.prefixlen) * 2 ^ (32 - network.prefixlen) = network.networkAddress
  | .v6 value => network.family = .v6 ∧
      value / 2 ^ (128 - network.prefixlen) * 2 ^ (128 - network.prefixlen) =
        network.networkAddress

/-- `_prefix_from_prefix_string`: decimal digits. -/
def prefixFromDigits (family : Family) (chars : List Char) : Option ℕ :=
  if chars ≠ [] ∧ chars.all Char.isDigit ∧ chars.length ≤ maxStrDigits ∧
      Nat.ofDigitChars 10 chars 0 ≤ family.bits then
    some (Nat.ofDigitChars 10 chars 0)
  else none

/-- `_prefix_from_ip_int`: ones in front of zeros. -/
def prefixFromIpInt (value : ℕ) : Option ℕ :=
  (List.range 33).find? fun prefixlen ↦ value = 2 ^ 32 - 2 ^ (32 - prefixlen)

/-- `_make_netmask`. -/
def makeNetmask : Family → List Char → Option ℕ
  | .v6, mask => prefixFromDigits .v6 mask
  | .v4, mask => (prefixFromDigits .v4 mask).or
      ((parseIpv4 mask).bind fun value ↦
        (prefixFromIpInt value).or (prefixFromIpInt (2 ^ 32 - 1 - value)))

/-- The network of an address and the length of a prefix, `none` when a host bit is set. -/
def networkOf (family : Family) (value prefixlen : ℕ) : Option Network :=
  if hvalid : prefixlen ≤ family.bits ∧ value % 2 ^ (family.bits - prefixlen) = 0 then
    some ⟨family, value, prefixlen, hvalid.1, hvalid.2⟩
  else none

/-- The value of an address of a family. -/
def parseAddress : Family → List Char → Option ℕ
  | .v4, chars => parseIpv4 chars
  | .v6, chars => parseIpv6 chars

/-- `IPv4Network(text)` and `IPv6Network(text)`. -/
def parseNetwork (family : Family) (chars : List Char) : Option Network :=
  match splitChars '/' chars with
  | [address] => (parseAddress family address).bind fun value ↦ networkOf family value family.bits
  | [address, mask] =>
    (parseAddress family address).bind fun value ↦
      (makeNetmask family mask).bind (networkOf family value)
  | _ => none

/-- `ipaddress.ip_network(text)`. -/
def ipNetwork (text : String) : Option Network :=
  (parseNetwork .v4 text.toList).or (parseNetwork .v6 text.toList)

end Lnmp.Foundation.IpAddress
