import Lnmp.Foundation.IpClasses

/-!
# Outbound connections

`services/ssrf_validator.py`. A webhook URL is checked twice: `validate_outbound_url` resolves its
host before the request, and `SSRFSafeBackend.connect_tcp` resolves the host once more when the
socket is opened, checks every address and connects to the first one. Both look at the address that
an IPv4-mapped one maps.

`connectTcp_asStrict_iff` says when the second check is as strict as the first one. Without private
addresses it asks only for global addresses, and addresses of the global multicast blocks and of
reserved IPv6 blocks are global.

The URL is given as `urlparse` returns it.
-/

set_option autoImplicit false
set_option relaxedAutoImplicit false

namespace Lnmp.Alerts

open Lnmp.Foundation Lnmp.Foundation.IpAddress

/-! ### Address objects -/

/-- An object of `ipaddress.ip_address`: an address, and the scope behind the percent sign. -/
structure ScopedAddress where
  address : Address
  scopeId : Option String
  deriving DecidableEq

/-- The scope of an IPv6 text. -/
def scopeText (text : String) : Option String :=
  match splitChars '%' text.toList with
  | [_, scope] => some (String.ofList scope)
  | _ => none

/-- `ipaddress.ip_address(text)`. -/
def scopedAddress (text : String) : Option ScopedAddress :=
  (ipAddress text).map fun address ↦ ⟨address, scopeText text⟩

/-- `str(ip)`. -/
def ScopedAddress.str (ip : ScopedAddress) : String :=
  ip.address.str ++ (ip.scopeId.map ("%" ++ ·)).getD ""

/-- The address itself, or the IPv4 address that it maps. -/
def ScopedAddress.unmapped (ip : ScopedAddress) : ScopedAddress :=
  match ip.address.ipv4Mapped with
  | some mapped => ⟨mapped, none⟩
  | none => ip

/-- `BLOCKED_IPS`. -/
def blockedIps : List String := ["169.254.169.254", "fd00:ec2::254"]

/-- `lower()` of ASCII letters. -/
def lower (text : String) : String := String.ofList (text.toList.map Char.toLower)

/-- `allow_private`, from the environment when it is not given. -/
def allowPrivateOf (environ : Option String) (allowPrivate : Option Bool) : Bool :=
  allowPrivate.getD (decide (lower (environ.getD "false") ∈ ["true", "1", "yes"]))

/-! ### The check at connect time -/

/-- The check of one resolved address, which gives the address without a mapping. -/
def connectedAddress (allowPrivate : Bool) (host ipStr : String) : Except String String :=
  match scopedAddress ipStr with
  | none => .error ("SSRF violation: Host '" ++ host ++ "' returned invalid IP '" ++ ipStr ++ "'.")
  | some ip =>
    let forbidden := "SSRF violation: Host '" ++ host ++ "' resolves to forbidden address " ++
      ip.unmapped.str ++ "."
    if ip.unmapped.str ∈ blockedIps then .error forbidden
    else if allowPrivate = false then
      if ¬ ip.unmapped.address.isGlobal ∨ ip.unmapped.address.isShared then .error forbidden
      else .ok ip.unmapped.str
    else if ip.unmapped.address.isLoopback ∨ ip.unmapped.address.isLinkLocal ∨
        ip.unmapped.address.isMulticast ∨ ip.unmapped.address.isReserved ∨
        ip.unmapped.address.isUnspecified then .error forbidden
    else .ok ip.unmapped.str

/-- The loop over the resolved addresses, with `target_ip`. -/
def connectLoop (allowPrivate : Bool) (host : String) :
    Option String → List String → Except String (Option String)
  | targetIp, [] => .ok targetIp
  | targetIp, ipStr :: rest =>
    match connectedAddress allowPrivate host ipStr with
    | .error message => .error message
    | .ok strIp => connectLoop allowPrivate host (targetIp.or (some strIp)) rest

/-- `connect_tcp`: the host that the inner backend is given. `getaddrinfo` gives the texts of the
resolved addresses, or the message of its error. -/
def connectTcp (getaddrinfo : String → ℕ → Except String (List String)) (allowPrivate : Bool)
    (host : String) (port : ℕ) : Except String String :=
  match getaddrinfo host port with
  | .error err => .error ("DNS resolution failure for host '" ++ host ++ "': " ++ err)
  | .ok [] => .error ("DNS resolution failure for host '" ++ host ++ "': No address returned.")
  | .ok addrInfo => (connectLoop allowPrivate host none addrInfo).map (·.getD host)

/-! ### The check before the request -/

/-- What `urlparse` returns for a URL. The port is an error when it is no number up to 65535. -/
structure ParsedUrl where
  url : String
  scheme : String
  hostname : Option String
  port : Except String (Option ℕ)

/-- `parsed.port or (443 if ... else 80)`. -/
def ParsedUrl.defaultPort (parsed : ParsedUrl) (port : Option ℕ) : ℕ :=
  (port.filter (· ≠ 0)).getD (if lower parsed.scheme = "https" then 443 else 80)

/-- `ipaddress.ip_address(ip_str)` of every resolved address. -/
def parseAddresses : List String → Except String (List ScopedAddress)
  | [] => .ok []
  | ipStr :: rest =>
    match scopedAddress ipStr with
    | none => .error ("'" ++ ipStr ++ "' does not appear to be an IPv4 or IPv6 address")
    | some ip => (parseAddresses rest).map (ip :: ·)

/-- `resolved_ips`. -/
def resolvedIps (getaddrinfo : String → ℕ → Except String (List String)) (parsed : ParsedUrl)
    (hostname : String) : Except String (List ScopedAddress) :=
  match scopedAddress hostname with
  | some directIp => .ok [directIp]
  | none =>
    match parsed.port with
    | .error message => .error message
    | .ok port =>
      match getaddrinfo hostname (parsed.defaultPort port) with
      | .error err => .error ("Failed to resolve host '" ++ hostname ++ "': " ++ err)
      | .ok addrInfo => parseAddresses addrInfo

/-- The check of one resolved address. -/
def checkResolved (hostname : String) (allowPrivate allowLoopback : Bool) (ip : ScopedAddress) :
    Except String Unit :=
  let violation := fun kind ↦ "SSRF violation: Host '" ++ hostname ++ "' resolves to " ++ kind ++
    " address " ++ ip.unmapped.str ++ "."
  if ip.unmapped.str ∈ blockedIps then .error (violation "blocked metadata")
  else if allowLoopback = false ∧ ip.unmapped.address.isLoopback then .error (violation "loopback")
  else if ip.unmapped.address.isLinkLocal then .error (violation "link-local")
  else if ip.unmapped.address.isMulticast ∨ ip.unmapped.address.isReserved ∨
      ip.unmapped.address.isUnspecified then .error (violation "invalid/reserved")
  else if allowPrivate = false ∧ (¬ ip.unmapped.address.isGlobal ∨ ip.unmapped.address.isPrivate ∨
      ip.unmapped.address.isShared) then .error (violation "non-global or private network")
  else .ok ()

/-- The loop over the resolved addresses. -/
def checkAllResolved (hostname : String) (allowPrivate allowLoopback : Bool) :
    List ScopedAddress → Except String Unit
  | [] => .ok ()
  | ip :: rest =>
    match checkResolved hostname allowPrivate allowLoopback ip with
    | .error message => .error message
    | .ok _ => checkAllResolved hostname allowPrivate allowLoopback rest

/-- `validate_outbound_url`. -/
def validateOutboundUrl (getaddrinfo : String → ℕ → Except String (List String))
    (environ : Option String) (parsed : ParsedUrl) (allowPrivate : Option Bool)
    (allowLoopback : Bool) : Except String Unit :=
  if parsed.url = "" then .error "URL cannot be empty."
  else if lower parsed.scheme ∉ ["http", "https"] then
    .error ("Invalid protocol '" ++ parsed.scheme ++ "'. Only HTTP and HTTPS URLs are permitted.")
  else
    match parsed.hostname.filter (· ≠ "") with
    | none => .error ("Invalid URL '" ++ parsed.url ++ "': Missing hostname.")
    | some hostname =>
      if hostname ∈ blockedIps then
        .error ("SSRF violation: Access to cloud metadata IP " ++ hostname ++ " is blocked.")
      else
        match resolvedIps getaddrinfo parsed hostname with
        | .error message => .error message
        | .ok [] => .error ("DNS resolution failure for host '" ++ hostname ++ "'.")
        | .ok ips =>
          checkAllResolved hostname (allowPrivateOf environ allowPrivate) allowLoopback ips

/-! ### What passes the checks -/

/-- The address passes the check at connect time. -/
structure ScopedAddress.Passes (ip : ScopedAddress) (allowPrivate : Bool) : Prop where
  str_not_mem : ip.unmapped.str ∉ blockedIps
  isGlobal : allowPrivate = false → ip.unmapped.address.isGlobal = true
  isHost : allowPrivate = true → ¬ (ip.unmapped.address.isLoopback ∨
    ip.unmapped.address.isLinkLocal ∨ ip.unmapped.address.isMulticast ∨
    ip.unmapped.address.isReserved ∨ ip.unmapped.address.isUnspecified)

/-- The address is neither multicast nor reserved. -/
def ScopedAddress.IsUnicast (ip : ScopedAddress) : Prop :=
  ip.unmapped.address.isMulticast = false ∧ ip.unmapped.address.isReserved = false

variable {ip : ScopedAddress} {allowPrivate : Bool} {host hostname ipStr strIp : String}
  {addrInfo : List String}

theorem unmapped_address (ip : ScopedAddress) : ip.unmapped.address = ip.address.unmapped := by
  unfold ScopedAddress.unmapped Address.unmapped
  cases ip.address.ipv4Mapped <;> rfl

/-- A global address is in none of the ranges that the pre-flight check excludes by name, but it
can be multicast or reserved. -/
theorem excluded_of_isGlobal (hglobal : ip.unmapped.address.isGlobal = true) :
    ip.unmapped.address.isShared = false ∧ ip.unmapped.address.isPrivate = false ∧
      ip.unmapped.address.isLoopback = false ∧ ip.unmapped.address.isLinkLocal = false ∧
      ip.unmapped.address.isUnspecified = false := by
  rw [unmapped_address] at hglobal ⊢
  have hprivate := Address.not_isPrivate_of_isGlobal hglobal
  have hshared := Address.not_isShared_of_isGlobal hglobal
  have hranges : ∀ range : Address → Bool,
      (range ip.address.unmapped.unmapped = true → ip.address.unmapped.isPrivate = true) →
      range ip.address.unmapped = false := by
    intro range hrange
    rw [Address.unmapped_unmapped, hprivate] at hrange
    exact eq_false_of_ne_true fun h ↦ Bool.false_ne_true (hrange h)
  rw [Address.unmapped_unmapped] at hshared
  exact ⟨hshared, hprivate, hranges _ Address.isPrivate_of_isLoopback,
    hranges _ Address.isPrivate_of_isLinkLocal, hranges _ Address.isPrivate_of_isUnspecified⟩

theorem connectedAddress_eq_ok_iff :
    connectedAddress allowPrivate host ipStr = .ok strIp ↔
      ∃ ip, scopedAddress ipStr = some ip ∧ ip.Passes allowPrivate ∧ ip.unmapped.str = strIp := by
  unfold connectedAddress
  cases hip : scopedAddress ipStr with
  | none => simp
  | some ip =>
    have hpasses : ∀ condition : Prop, (ip.Passes allowPrivate ↔ condition) →
        ((∃ other, some ip = some other ∧ other.Passes allowPrivate ∧
          other.unmapped.str = strIp) ↔ condition ∧ ip.unmapped.str = strIp) := by
      rintro condition hcondition
      rw [← hcondition]
      simp
    dsimp only
    split_ifs with hblocked hallow hglobal hrange
    · rw [hpasses False (iff_false_intro fun h ↦ h.str_not_mem hblocked)]
      simp
    · rw [hpasses False (iff_false_intro fun h ↦ ?_)]
      · simp
      · have hshared := (excluded_of_isGlobal (h.isGlobal hallow)).1
        rw [h.isGlobal hallow, hshared] at hglobal
        exact hglobal.elim (fun hne ↦ hne rfl) Bool.false_ne_true
    · rw [hpasses True (iff_true_intro ⟨hblocked, fun _ ↦ ?_, fun h ↦ ?_⟩)]
      · simp
      · exact Decidable.not_not.mp (not_or.mp hglobal).1
      · exact absurd (hallow.symm.trans h) Bool.false_ne_true
    · rw [hpasses False (iff_false_intro fun h ↦ h.isHost (eq_true_of_ne_false hallow) hrange)]
      simp
    · rw [hpasses True (iff_true_intro ⟨hblocked, fun h ↦ absurd h hallow, fun _ ↦ hrange⟩)]
      simp

/-- The pre-flight check accepts what passes at connect time and is neither multicast nor
reserved. -/
theorem checkResolved_eq_ok_iff :
    checkResolved hostname allowPrivate false ip = .ok () ↔
      ip.Passes allowPrivate ∧ ip.IsUnicast := by
  unfold checkResolved
  dsimp only
  split_ifs with hblocked hloopback hlocal hrange hprivate
  · exact iff_of_false (by simp) fun h ↦ h.1.str_not_mem hblocked
  · refine iff_of_false (by simp) fun h ↦ ?_
    cases hallow : allowPrivate with
    | false =>
      have hnone := (excluded_of_isGlobal (h.1.isGlobal hallow)).2.2.1
      exact Bool.false_ne_true (hnone.symm.trans hloopback.2)
    | true => exact h.1.isHost hallow (Or.inl hloopback.2)
  · refine iff_of_false (by simp) fun h ↦ ?_
    cases hallow : allowPrivate with
    | false =>
      have hnone := (excluded_of_isGlobal (h.1.isGlobal hallow)).2.2.2.1
      exact Bool.false_ne_true (hnone.symm.trans hlocal)
    | true => exact h.1.isHost hallow (Or.inr (Or.inl hlocal))
  · refine iff_of_false (by simp) fun h ↦ ?_
    rcases hrange with hmulticast | hreserved | hunspecified
    · exact Bool.false_ne_true (h.2.1.symm.trans hmulticast)
    · exact Bool.false_ne_true (h.2.2.symm.trans hreserved)
    · cases hallow : allowPrivate with
      | false =>
        have hnone := (excluded_of_isGlobal (h.1.isGlobal hallow)).2.2.2.2
        exact Bool.false_ne_true (hnone.symm.trans hunspecified)
      | true => exact h.1.isHost hallow (by simp [hunspecified])
  · refine iff_of_false (by simp) fun h ↦ ?_
    have hglobal := h.1.isGlobal hprivate.1
    obtain ⟨hshared, hnotPrivate, -⟩ := excluded_of_isGlobal hglobal
    rw [hglobal, hshared, hnotPrivate] at hprivate
    simp at hprivate
  · refine iff_of_true rfl ⟨⟨hblocked, fun hallow ↦ ?_, fun _ ↦ ?_⟩, ?_, ?_⟩
    · by_contra hglobal
      exact hprivate ⟨hallow, Or.inl hglobal⟩
    · simp only [true_and] at hloopback
      tauto
    · exact eq_false_of_ne_true fun h ↦ hrange (Or.inl h)
    · exact eq_false_of_ne_true fun h ↦ hrange (Or.inr (Or.inl h))

/-! ### What passes the loops -/

theorem connectLoop_some_eq_ok_iff {targetIp : String} {result : Option String} :
    connectLoop allowPrivate host (some targetIp) addrInfo = .ok result ↔
      result = some targetIp ∧
        ∀ ipStr ∈ addrInfo, ∃ strIp, connectedAddress allowPrivate host ipStr = .ok strIp := by
  induction addrInfo with
  | nil => simp [connectLoop, eq_comm]
  | cons ipStr rest ih =>
    rw [connectLoop]
    cases hchecked : connectedAddress allowPrivate host ipStr with
    | error message => simp [hchecked]
    | ok strIp => simp [hchecked, ih]

variable {getaddrinfo : String → ℕ → Except String (List String)} {port : ℕ} {target : String}

/-- A connection goes to the first address, and every address has passed the check. -/
theorem connectTcp_eq_ok_iff (hresolved : getaddrinfo host port = .ok addrInfo) :
    connectTcp getaddrinfo allowPrivate host port = .ok target ↔
      (∃ ip, addrInfo.head?.bind scopedAddress = some ip ∧ ip.unmapped.str = target) ∧
        ∀ ipStr ∈ addrInfo, ∃ ip, scopedAddress ipStr = some ip ∧ ip.Passes allowPrivate := by
  have hpasses : ∀ ipStr, (∃ strIp, connectedAddress allowPrivate host ipStr = .ok strIp) ↔
      ∃ ip, scopedAddress ipStr = some ip ∧ ip.Passes allowPrivate := by
    intro ipStr
    simp only [connectedAddress_eq_ok_iff]
    constructor
    · rintro ⟨strIp, ip, hip, hpass, -⟩
      exact ⟨ip, hip, hpass⟩
    · rintro ⟨ip, hip, hpass⟩
      exact ⟨_, ip, hip, hpass, rfl⟩
  rw [connectTcp, hresolved]
  cases addrInfo with
  | nil => simp
  | cons ipStr rest =>
    simp only [connectLoop, Option.none_or, List.head?_cons, Option.bind_some,
      List.forall_mem_cons]
    cases hchecked : connectedAddress allowPrivate host ipStr with
    | error message =>
      refine iff_of_false (by simp [Except.map]) fun h ↦ ?_
      obtain ⟨strIp, hok⟩ := (hpasses ipStr).mpr h.2.1
      rw [hchecked] at hok
      cases hok
    | ok strIp =>
      obtain ⟨ip, hip, hpass, rfl⟩ := connectedAddress_eq_ok_iff.mp hchecked
      have hloop : (connectLoop allowPrivate host (some ip.unmapped.str) rest).map (·.getD host) =
          .ok target ↔ ip.unmapped.str = target ∧
            ∀ ipStr ∈ rest, ∃ ip, scopedAddress ipStr = some ip ∧ ip.Passes allowPrivate := by
        simp only [← hpasses]
        cases hresult : connectLoop allowPrivate host (some ip.unmapped.str) rest with
        | error message =>
          refine iff_of_false (by simp [Except.map]) fun h ↦ ?_
          rw [connectLoop_some_eq_ok_iff.mpr ⟨rfl, h.2⟩] at hresult
          cases hresult
        | ok result =>
          obtain ⟨rfl, hrest⟩ := connectLoop_some_eq_ok_iff.mp hresult
          simpa [Except.map] using fun _ ↦ hrest
      dsimp only
      rw [hloop, hip]
      simp [hpass]

theorem checkAllResolved_eq_ok_iff {allowLoopback : Bool} {ips : List ScopedAddress} :
    checkAllResolved hostname allowPrivate allowLoopback ips = .ok () ↔
      ∀ ip ∈ ips, checkResolved hostname allowPrivate allowLoopback ip = .ok () := by
  induction ips with
  | nil => simp [checkAllResolved]
  | cons ip rest ih =>
    rw [checkAllResolved, List.forall_mem_cons, ← ih]
    cases checkResolved hostname allowPrivate allowLoopback ip with
    | error message => simp
    | ok checked => simp

theorem parseAddresses_eq_ok (hparsed : ∀ ipStr ∈ addrInfo, ∃ ip, scopedAddress ipStr = some ip) :
    parseAddresses addrInfo = .ok (addrInfo.filterMap scopedAddress) := by
  induction addrInfo with
  | nil => rfl
  | cons ipStr rest ih =>
    obtain ⟨⟨ip, hip⟩, hrest⟩ := List.forall_mem_cons.mp hparsed
    rw [parseAddresses, hip, List.filterMap_cons_some hip]
    dsimp only
    rw [ih hrest]
    rfl

/-! ### The two checks of one list -/

/-- A URL of a protocol that is allowed, with a host. -/
structure ParsedUrl.IsHttpOf (parsed : ParsedUrl) (hostname : String) : Prop where
  url_ne : parsed.url ≠ ""
  scheme : lower parsed.scheme ∈ ["http", "https"]
  hostname_eq : parsed.hostname = some hostname
  hostname_ne : hostname ≠ ""
  port_ok : ∃ port, parsed.port = .ok port

/-- What `getaddrinfo` gives for a literal: its address alone, without the scope. -/
def ResolvesLiteral (hostname : String) (addrInfo : List String) : Prop :=
  ∀ ip, scopedAddress hostname = some ip →
    ∃ ipStr, addrInfo = [ipStr] ∧ scopedAddress ipStr = some ⟨ip.address, none⟩

/-- The blocked texts are literals, and have no scope. -/
theorem blockedIps_literal : ∀ text ∈ blockedIps, '%' ∉ text.toList ∧
    ∃ ip, scopedAddress text = some ip ∧ ip.scopeId = none ∧ ip.unmapped.str = text := by
  rintro text htext
  rcases List.mem_pair.mp htext with rfl | rfl
  · exact ⟨by decide, ⟨.v4 0xA9FEA9FE, none⟩, by decide, rfl, by decide⟩
  · exact ⟨by decide, ⟨.v6 0xFD000EC2000000000000000000000254, none⟩, by decide, rfl, by decide⟩

/-- A scope does not let an address fail the check that passes it without one. -/
theorem ScopedAddress.Passes.scoped
    (hpass : (ScopedAddress.mk ip.address none).Passes allowPrivate) : ip.Passes allowPrivate := by
  have haddress : (ScopedAddress.mk ip.address none).unmapped.address = ip.unmapped.address := by
    rw [unmapped_address, unmapped_address]
  refine ⟨fun hmem ↦ hpass.str_not_mem ?_, haddress ▸ hpass.isGlobal, haddress ▸ hpass.isHost⟩
  cases hmapped : ip.address.ipv4Mapped with
  | some mapped =>
    rw [ScopedAddress.unmapped, hmapped] at hmem ⊢
    exact hmem
  | none =>
    rw [ScopedAddress.unmapped, hmapped] at hmem ⊢
    dsimp only at hmem ⊢
    cases hscope : ip.scopeId with
    | none =>
      rw [ScopedAddress.str, hscope] at hmem
      exact hmem
    | some scope =>
      refine absurd ?_ (blockedIps_literal _ hmem).1
      rw [ScopedAddress.str, hscope]
      simp

/-- What the pre-flight check accepts of a host whose addresses pass at connect time. -/
theorem validateOutboundUrl_eq_ok_iff {environ : Option String} {given : Option Bool}
    {parsed : ParsedUrl} (hurl : parsed.IsHttpOf hostname)
    (hresolved : ∀ port, getaddrinfo hostname port = .ok addrInfo)
    (hliteral : ResolvesLiteral hostname addrInfo) (hne : addrInfo ≠ [])
    (hpasses : ∀ ipStr ∈ addrInfo, ∃ ip, scopedAddress ipStr = some ip ∧
      ip.Passes (allowPrivateOf environ given)) :
    validateOutboundUrl getaddrinfo environ parsed given false = .ok () ↔
      ∀ ipStr ∈ addrInfo, ∀ ip, scopedAddress ipStr = some ip → ip.IsUnicast := by
  obtain ⟨port, hport⟩ := hurl.port_ok
  have hhostname : parsed.hostname.filter (· ≠ "") = some hostname := by
    rw [hurl.hostname_eq, Option.filter_some, if_pos (decide_eq_true hurl.hostname_ne)]
  have hblocked : hostname ∉ blockedIps := by
    intro hmem
    obtain ⟨-, ip, hip, hscope, hstr⟩ := blockedIps_literal hostname hmem
    obtain ⟨ipStr, rfl, hipStr⟩ := hliteral ip hip
    obtain ⟨same, hsame, hpass⟩ := hpasses ipStr (List.mem_singleton_self _)
    rw [hipStr, Option.some_inj, ← hscope] at hsame
    obtain rfl := hsame
    exact hpass.str_not_mem (hstr.symm ▸ hmem)
  rw [validateOutboundUrl, if_neg hurl.url_ne, if_neg (not_not.mpr hurl.scheme), hhostname]
  dsimp only
  rw [if_neg hblocked, resolvedIps]
  cases hdirect : scopedAddress hostname with
  | some ip =>
    obtain ⟨ipStr, rfl, hipStr⟩ := hliteral ip hdirect
    obtain ⟨plain, hplain, hpass⟩ := hpasses ipStr (List.mem_singleton_self _)
    obtain rfl := Option.some.inj (hipStr.symm.trans hplain)
    have hunicast : (ScopedAddress.mk ip.address none).IsUnicast ↔ ip.IsUnicast := by
      rw [ScopedAddress.IsUnicast, ScopedAddress.IsUnicast, unmapped_address, unmapped_address]
    dsimp only
    rw [checkAllResolved_eq_ok_iff, List.forall_mem_singleton, checkResolved_eq_ok_iff,
      List.forall_mem_singleton, hipStr, and_iff_right hpass.scoped, ← hunicast]
    simp
  | none =>
    have hparsed : ∀ ipStr ∈ addrInfo, ∃ ip, scopedAddress ipStr = some ip :=
      fun ipStr hmem ↦ (hpasses ipStr hmem).imp fun _ h ↦ h.1
    have hips : addrInfo.filterMap scopedAddress ≠ [] := by
      intro hnil
      obtain ⟨ipStr, hmem⟩ := List.exists_mem_of_ne_nil addrInfo hne
      obtain ⟨ip, hip⟩ := hparsed ipStr hmem
      exact Option.some_ne_none ip (hip.symm.trans (List.filterMap_eq_nil_iff.mp hnil ipStr hmem))
    rw [hport]
    dsimp only
    rw [hresolved]
    dsimp only
    rw [parseAddresses_eq_ok hparsed]
    obtain ⟨first, rest, hfirst⟩ := List.exists_cons_of_ne_nil hips
    rw [hfirst]
    dsimp only
    rw [← hfirst, checkAllResolved_eq_ok_iff]
    simp only [checkResolved_eq_ok_iff, List.mem_filterMap]
    constructor
    · intro hall ipStr hmem ip hip
      exact (hall ip ⟨ipStr, hmem, hip⟩).2
    · rintro hall ip ⟨ipStr, hmem, hip⟩
      obtain ⟨same, hsame, hpass⟩ := hpasses ipStr hmem
      obtain rfl := Option.some.inj (hip.symm.trans hsame)
      exact ⟨hpass, hall ipStr hmem ip hip⟩

/-! ### The comparison -/

/-- If the connection is made, it goes to one of the addresses, and the pre-flight check accepts the
URL. -/
def AsStrict (getaddrinfo : String → ℕ → Except String (List String)) (environ : Option String)
    (given : Option Bool) (host : String) (port : ℕ) (parsed : ParsedUrl) (addrInfo : List String) :
    Prop :=
  ∀ target, connectTcp getaddrinfo (allowPrivateOf environ given) host port = .ok target →
    (∃ ipStr ∈ addrInfo, ∃ ip, scopedAddress ipStr = some ip ∧ target = ip.unmapped.str) ∧
      validateOutboundUrl getaddrinfo environ parsed given false = .ok ()

/-- Private addresses are allowed, or one of the addresses is invalid, blocked or not global, or
none of them is multicast or reserved. -/
def SettledByGlobal (allowPrivate : Bool) (addrInfo : List String) : Prop :=
  allowPrivate = true ∨
    (∃ ipStr ∈ addrInfo, ∀ ip, scopedAddress ipStr = some ip →
      ip.unmapped.str ∈ blockedIps ∨ ip.unmapped.address.isGlobal = false) ∨
    ∀ ipStr ∈ addrInfo, ∀ ip, scopedAddress ipStr = some ip → ip.IsUnicast

/-- The check at connect time is as strict as the pre-flight check of a URL whose host resolves to
the same addresses, exactly when private addresses are allowed, or one of the addresses is invalid,
blocked or not global, or none of them is multicast or reserved. -/
theorem connectTcp_asStrict_iff (getaddrinfo : String → ℕ → Except String (List String))
    (environ : Option String) (given : Option Bool) (host : String) (port : ℕ) (parsed : ParsedUrl)
    (hostname : String) (addrInfo : List String) (hurl : parsed.IsHttpOf hostname)
    (hhost : getaddrinfo host port = .ok addrInfo)
    (hresolved : ∀ port, getaddrinfo hostname port = .ok addrInfo)
    (hliteral : ResolvesLiteral hostname addrInfo) :
    AsStrict getaddrinfo environ given host port parsed addrInfo ↔
      SettledByGlobal (allowPrivateOf environ given) addrInfo := by
  constructor
  · intro hstrict
    by_contra hsettled
    obtain ⟨hallow, hsettled⟩ := not_or.mp hsettled
    obtain ⟨hconnects, hmulticast⟩ := not_or.mp hsettled
    push Not at hconnects
    have hpasses : ∀ ipStr ∈ addrInfo, ∃ ip, scopedAddress ipStr = some ip ∧
        ip.Passes (allowPrivateOf environ given) := by
      intro ipStr hmem
      obtain ⟨ip, hip, hblocked, hglobal⟩ := hconnects ipStr hmem
      exact ⟨ip, hip, hblocked, fun _ ↦ eq_true_of_ne_false hglobal, fun h ↦ absurd h hallow⟩
    have hne : addrInfo ≠ [] := by
      rintro rfl
      exact hmulticast fun _ hmem ↦ absurd hmem List.not_mem_nil
    obtain ⟨ipStr, rest, rfl⟩ := List.exists_cons_of_ne_nil hne
    obtain ⟨ip, hip, -⟩ := hpasses ipStr (List.mem_cons_self ..)
    have hok := (connectTcp_eq_ok_iff hhost).mpr ⟨⟨ip, hip, rfl⟩, hpasses⟩
    have hvalid := (hstrict _ hok).2
    rw [validateOutboundUrl_eq_ok_iff hurl hresolved hliteral hne hpasses] at hvalid
    exact hmulticast hvalid
  · intro hsettled target hok
    obtain ⟨⟨ip, hip, rfl⟩, hpasses⟩ := (connectTcp_eq_ok_iff hhost).mp hok
    obtain ⟨ipStr, hhead, hip⟩ := Option.bind_eq_some_iff.mp hip
    refine ⟨⟨ipStr, List.mem_of_head? hhead, ip, hip, rfl⟩, ?_⟩
    have hne : addrInfo ≠ [] := List.ne_nil_of_mem (List.mem_of_head? hhead)
    rw [validateOutboundUrl_eq_ok_iff hurl hresolved hliteral hne hpasses]
    intro ipStr hmem ip hip
    obtain ⟨same, hsame, hpass⟩ := hpasses ipStr hmem
    obtain rfl := Option.some.inj (hip.symm.trans hsame)
    rcases hsettled with hallow | ⟨other, hother, hrefused⟩ | hunicast
    · have hhost := hpass.isHost hallow
      exact ⟨eq_false_of_ne_true fun h ↦ hhost (by simp [h]),
        eq_false_of_ne_true fun h ↦ hhost (by simp [h])⟩
    · obtain ⟨found, hfound, hkept⟩ := hpasses other hother
      rcases hrefused found hfound with hblocked | hlocal
      · exact absurd hblocked hkept.str_not_mem
      · cases hallow : allowPrivateOf environ given with
        | false => exact absurd (hlocal.symm.trans (hkept.isGlobal hallow)) Bool.false_ne_true
        | true =>
          have hhost := hpass.isHost hallow
          exact ⟨eq_false_of_ne_true fun h ↦ hhost (by simp [h]),
            eq_false_of_ne_true fun h ↦ hhost (by simp [h])⟩
    · exact hunicast ipStr hmem ip hip

/-- A resolver with one name. -/
def oneName (address : String) (host : String) (_ : ℕ) : Except String (List String) :=
  if host = "hooks.example" then .ok [address] else .error "Name or service not known"

/-- A URL of this name. -/
def hooksUrl : ParsedUrl :=
  ⟨"https://hooks.example/alerts", "https", some "hooks.example", .ok none⟩

theorem isHttpOf_hooksUrl : hooksUrl.IsHttpOf "hooks.example" :=
  ⟨by decide, by decide, rfl, by decide, none, rfl⟩

theorem resolvesLiteral_hooks (addrInfo : List String) :
    ResolvesLiteral "hooks.example" addrInfo := by
  have hname : scopedAddress "hooks.example" = none := by decide
  exact fun ip hip ↦ absurd (hname.symm.trans hip) (Option.some_ne_none ip).symm

theorem connectTcp_asStrict_hooksUrl_iff :
    AsStrict (oneName "8.8.8.8") none (some false) "hooks.example" 443 hooksUrl ["8.8.8.8"] ↔
      SettledByGlobal (allowPrivateOf none (some false)) ["8.8.8.8"] :=
  connectTcp_asStrict_iff (oneName "8.8.8.8") none (some false) "hooks.example" 443 hooksUrl
    "hooks.example" ["8.8.8.8"] isHttpOf_hooksUrl rfl (fun _ ↦ rfl) (resolvesLiteral_hooks _)

/-- A name that resolves to a global multicast address: the connection is made, and the pre-flight
check rejects the URL. -/
theorem not_asStrict_hooksUrl :
    connectTcp (oneName "224.0.1.1") (allowPrivateOf none (some false)) "hooks.example" 443 =
        .ok "224.0.1.1" ∧
      ¬ AsStrict (oneName "224.0.1.1") none (some false) "hooks.example" 443 hooksUrl
        ["224.0.1.1"] := by
  have hok : connectTcp (oneName "224.0.1.1") (allowPrivateOf none (some false)) "hooks.example"
      443 = .ok "224.0.1.1" := by rfl
  have hrejected : validateOutboundUrl (oneName "224.0.1.1") none hooksUrl (some false) false ≠
      .ok () := by decide
  exact ⟨hok, fun hstrict ↦ hrejected (hstrict _ hok).2⟩

end Lnmp.Alerts
