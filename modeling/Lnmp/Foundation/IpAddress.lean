import Lnmp.Foundation.PythonText

/-!
# Textual IP addresses

The two directions between packed addresses and their text: `ipAddress` is the parser of Python's
`ipaddress.ip_address`, and `inetNtopV4`, `inetNtopV6` are the printers of `socket.inet_ntop` for
the two address families. `ipAddress` is `none` on the text that the parser rejects.

`inetNtopV6` prints eight groups in hexadecimal and abbreviates the first longest run of at least
two zero groups. An address whose run is its first six groups, or its first five in front of a
group `ffff`, ends in a dotted quad.
-/

set_option autoImplicit false
set_option relaxedAutoImplicit false

namespace Lnmp.Foundation.IpAddress

/-! ### Splitting and joining -/

/-- `text.split(separator)`. -/
def splitChars (separator : Char) : List Char → List (List Char)
  | [] => [[]]
  | char :: rest =>
    if char = separator then [] :: splitChars separator rest
    else
      match splitChars separator rest with
      | [] => [[char]]
      | part :: parts => (char :: part) :: parts

theorem splitChars_ne_nil (separator : Char) (chars : List Char) :
    splitChars separator chars ≠ [] := by
  cases chars with
  | nil => exact List.cons_ne_nil _ _
  | cons char rest =>
    rw [splitChars]
    split
    · exact List.cons_ne_nil _ _
    · split <;> exact List.cons_ne_nil _ _

/-- The parts of two texts with a separator between them are those of both. -/
theorem splitChars_append_cons (separator : Char) (front rest : List Char) :
    splitChars separator (front ++ separator :: rest) =
      splitChars separator front ++ splitChars separator rest := by
  induction front with
  | nil =>
    show splitChars separator (separator :: rest) = [] :: splitChars separator rest
    rw [splitChars, if_pos rfl]
  | cons char front ih =>
    rw [List.cons_append, splitChars, splitChars, ih]
    split
    · rfl
    · cases hparts : splitChars separator front with
      | nil => exact absurd hparts (splitChars_ne_nil separator front)
      | cons part parts => rfl

/-- `separator.join(parts)`. -/
def joinChars (separator : Char) : List (List Char) → List Char
  | [] => []
  | [part] => part
  | part :: next :: rest => part ++ separator :: joinChars separator (next :: rest)

/-! ### Parsing -/

/-- A parsed address: its family and its value. -/
inductive Address
  | v4 (value : ℕ)
  | v6 (value : ℕ)
  deriving DecidableEq

/-- One octet of a dotted quad: at most three digits, no leading zero, at most 255. -/
def parseOctet (chars : List Char) : Option ℕ :=
  if chars ≠ [] ∧ chars.all Char.isDigit ∧ chars.length ≤ 3 ∧
      (chars = ['0'] ∨ chars.head? ≠ some '0') ∧ Nat.ofDigitChars 10 chars 0 ≤ 255 then
    some (Nat.ofDigitChars 10 chars 0)
  else none

/-- `IPv4Address(text)`. -/
def parseIpv4 (chars : List Char) : Option ℕ :=
  match (splitChars '.' chars).mapM parseOctet with
  | some [first, second, third, fourth] =>
    some (((first * 256 + second) * 256 + third) * 256 + fourth)
  | _ => none

/-- The value of a hexadecimal digit. -/
def hexValue? (char : Char) : Option ℕ :=
  if '0' ≤ char ∧ char ≤ '9' then some (char.toNat - 48)
  else if 'a' ≤ char ∧ char ≤ 'f' then some (char.toNat - 87)
  else if 'A' ≤ char ∧ char ≤ 'F' then some (char.toNat - 55)
  else none

/-- One group of an IPv6 address: one to four hexadecimal digits. -/
def parseHextet (chars : List Char) : Option ℕ :=
  if chars ≠ [] ∧ chars.length ≤ 4 then
    (chars.mapM hexValue?).map fun values ↦ values.foldl (fun value digit ↦ 16 * value + digit) 0
  else none

/-- The groups of an IPv6 text, with a dotted quad at its end replaced by two groups. -/
def ipv6Parts (chars : List Char) : Option (List (List Char)) :=
  let parts := splitChars ':' chars
  if parts.length < 3 then none
  else
    match parts.getLast? with
    | none => none
    | some last =>
      if '.' ∈ last then
        (parseIpv4 last).map fun value ↦
          parts.dropLast ++
            [Nat.toDigits 16 (value / 65536 % 65536), Nat.toDigits 16 (value % 65536)]
      else some parts

/-- The places of the empty groups between the first and the last. -/
def skipIndices (parts : List (List Char)) : List ℕ :=
  (List.range parts.length).filter fun index ↦
    1 ≤ index ∧ index + 1 < parts.length ∧ parts[index]? = some []

/-- The groups in front of an abbreviation: none when the text starts with `::`. -/
def headGroups : List (List Char) → Option (List (List Char))
  | [[]] => some []
  | [] :: _ => none
  | parts => some parts

/-- The groups behind an abbreviation: none when the text ends with `::`. -/
def tailGroups (parts : List (List Char)) : Option (List (List Char)) :=
  if parts = [[]] then some []
  else if parts.getLast? = some [] then none
  else some parts

/-- The value of a list of groups. -/
def hextetsValue (values : List ℕ) : ℕ := values.foldl (fun total value ↦ total * 65536 + value) 0

/-- The value of an IPv6 text without scope, from its groups. -/
def parseGroups (parts : List (List Char)) : Option ℕ :=
  if 9 < parts.length then none
  else
    match skipIndices parts with
    | [] =>
      if parts.length = 8 ∧ parts.head? ≠ some [] ∧ parts.getLast? ≠ some [] then
        (parts.mapM parseHextet).map hextetsValue
      else none
    | [skip] => do
      let high ← headGroups (parts.take skip)
      let low ← tailGroups (parts.drop (skip + 1))
      if high.length + low.length < 8 then
        let highValues ← high.mapM parseHextet
        let lowValues ← low.mapM parseHextet
        some (hextetsValue (highValues ++
          List.replicate (8 - (high.length + low.length)) 0 ++ lowValues))
      else none
    | _ :: _ :: _ => none

/-- `IPv6Address(text)`: the scope behind a percent sign is checked and dropped. -/
def parseIpv6 (chars : List Char) : Option ℕ :=
  match splitChars '%' chars with
  | [address] => (ipv6Parts address).bind parseGroups
  | [address, scope] =>
    if scope ≠ [] ∧ '/' ∉ scope then (ipv6Parts address).bind parseGroups else none
  | _ => none

/-- `ipaddress.ip_address(text)`. -/
def ipAddress (text : String) : Option Address :=
  match parseIpv4 text.toList with
  | some value => some (Address.v4 value)
  | none => (parseIpv6 text.toList).map Address.v6

/-! ### Address classes -/

/-- `is_multicast`. -/
def Address.isMulticast : Address → Bool
  | .v4 value => value / 2 ^ 28 = 0xE
  | .v6 value => value / 2 ^ 120 = 0xFF

/-- `is_loopback`. -/
def Address.isLoopback : Address → Bool
  | .v4 value => value / 2 ^ 24 = 127
  | .v6 value => value = 1

/-- `is_unspecified`. -/
def Address.isUnspecified : Address → Bool
  | .v4 value => value = 0
  | .v6 value => value = 0

/-- `is_reserved`: 240.0.0.0/4, and for IPv6 everything outside 2000::/3, fc00::/7, fe80::/9 and
ff00::/8. -/
def Address.isReserved : Address → Bool
  | .v4 value => value / 2 ^ 28 = 0xF
  | .v6 value =>
    ¬ (value / 2 ^ 125 = 1 ∨ value / 2 ^ 121 = 0x7E ∨ value / 2 ^ 119 = 0x1FD ∨
      value / 2 ^ 120 = 0xFF)

/-! ### Printing -/

/-- Octets in decimal, separated by dots. -/
def dottedQuad (octets : List ℕ) : List Char := joinChars '.' (octets.map (Nat.toDigits 10))

/-- The number of zero groups at the start of a list. -/
def zeroRun : List ℕ → ℕ
  | 0 :: rest => zeroRun rest + 1
  | _ => 0

/-- The first longest run of zero groups: its place and its length, from a place on. -/
def longestZeroRun : ℕ → List ℕ → ℕ × ℕ
  | place, [] => (place, 0)
  | place, group :: rest =>
    let here := zeroRun (group :: rest)
    let later := longestZeroRun (place + 1) rest
    if later.2 ≤ here then (place, here) else later

/-- The octets of two groups. -/
def quadOctets (high low : ℕ) : List ℕ := [high / 256, high % 256, low / 256, low % 256]

/-- The texts of the groups behind an abbreviation at the start. The last two groups are a dotted
quad behind six zero groups, and behind five and a group `ffff`. -/
def lowTexts (abbreviated : ℕ) : List ℕ → List (List Char)
  | [high, low] =>
    if abbreviated = 6 then [dottedQuad (quadOctets high low)]
    else [Nat.toDigits 16 high, Nat.toDigits 16 low]
  | [mapped, high, low] =>
    if abbreviated = 5 ∧ mapped = 0xffff then
      [Nat.toDigits 16 mapped, dottedQuad (quadOctets high low)]
    else [Nat.toDigits 16 mapped, Nat.toDigits 16 high, Nat.toDigits 16 low]
  | groups => groups.map (Nat.toDigits 16)

/-- The texts of groups at an end of an abbreviation, which stands alone there without any. -/
def endTexts (texts : List (List Char)) : List (List Char) := if texts = [] then [[]] else texts

/-- The text of eight groups. -/
def ntopGroups (groups : List ℕ) : List Char :=
  let best := longestZeroRun 0 groups
  if best.2 < 2 then joinChars ':' (groups.map (Nat.toDigits 16))
  else
    let rest := groups.drop (best.1 + best.2)
    let low := if best.1 = 0 then lowTexts best.2 rest else rest.map (Nat.toDigits 16)
    joinChars ':'
      (endTexts ((groups.take best.1).map (Nat.toDigits 16)) ++ [] :: endTexts low)

/-- The groups of sixteen octets. -/
def groupsOf : List ℕ → List ℕ
  | high :: low :: rest => (high * 256 + low) :: groupsOf rest
  | _ => []

/-- `socket.inet_ntop(AF_INET, ...)` of four octets. -/
def inetNtopV4 (octets : List ℕ) : String := String.ofList (dottedQuad octets)

/-- `socket.inet_ntop(AF_INET6, ...)` of sixteen octets. -/
def inetNtopV6 (octets : List ℕ) : String := String.ofList (ntopGroups (groupsOf octets))

/-- The text of eight groups in which the last two are never a dotted quad. -/
def compressedGroups (groups : List ℕ) : List Char :=
  let texts := groups.map (Nat.toDigits 16)
  let best := longestZeroRun 0 groups
  if best.2 < 2 then joinChars ':' texts
  else
    joinChars ':' (endTexts (texts.take best.1) ++ [] :: endTexts (texts.drop (best.1 + best.2)))

/-- `str` of an address. -/
def Address.str : Address → String
  | .v4 value =>
    String.ofList (dottedQuad ((List.range 4).map fun place ↦ value / 256 ^ (3 - place) % 256))
  | .v6 value =>
    String.ofList
      (compressedGroups ((List.range 8).map fun place ↦ value / 65536 ^ (7 - place) % 65536))

end Lnmp.Foundation.IpAddress
