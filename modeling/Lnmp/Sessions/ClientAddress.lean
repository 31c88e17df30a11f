import Lnmp.Foundation.InetNtop
import Lnmp.Foundation.IpNetwork
import Lnmp.Sessions.Lockout

/-!
# The address of a client

`get_trusted_client_ip` of `services/auth_service.py`, the address under which a login counts its
failures (`routers/auth.py`). A peer that is no trusted proxy is the client itself. Behind a trusted
proxy the header `X-Forwarded-For` is read from the right, up to the first entry that is no trusted
proxy.

`notSpoofable` is the law about two requests: an untrusted peer cannot change the answer with the
header, and behind a trusted one only what stands from the right-most untrusted entry on counts.
Behind the reverse proxy of `deploy/nginx.conf.template` that entry is the one which the proxy
appends (`getTrustedClientIp_proxied`).
-/

set_option autoImplicit false
set_option relaxedAutoImplicit false

namespace Lnmp.Sessions

open Lnmp.Foundation.IpAddress Lnmp.Foundation.PythonText

/-! ### Trusted proxies -/

/-- `DEFAULT_TRUSTED_PROXIES`. -/
def defaultTrustedProxies : List Network := ["127.0.0.0/8", "::1/128"].filterMap ipNetwork

/-- `is_ip_in_networks`. Without networks it takes the default ones. -/
def isIpInNetworks (ipStr : String) (networks : List Network) : Bool :=
  match ipAddress (strip ipStr) with
  | none => false
  | some ipObj =>
    let targetNets := if networks ≠ [] then networks else defaultTrustedProxies
    targetNets.any fun net ↦ net.contains ipObj

/-- `trusted_nets`, `none` when a text is no network. -/
def trustedNets (trustedCidrs : List String) : Option (List Network) :=
  if trustedCidrs ≠ [] then
    ((trustedCidrs.map strip).filter (· ≠ "")).mapM ipNetwork
  else some defaultTrustedProxies

/-! ### The address of a request -/

/-- What is read of a request: the host of the peer, and two headers. -/
structure ProxiedRequest where
  clientHost : Option String
  forwardedFor : Option String
  realIp : Option String
  deriving DecidableEq

/-- `peer_ip`. -/
def ProxiedRequest.peerIp (request : ProxiedRequest) : String :=
  match request.clientHost with
  | none => "127.0.0.1"
  | some host => if host ≠ "" then strip host else "127.0.0.1"

/-- `parts`: the entries of the header that are not blank. -/
def forwardedParts (forwarded : String) : List String :=
  ((splitChars ',' forwarded.toList).map fun part ↦ strip (String.ofList part)).filter (· ≠ "")

/-- The entry that is taken from the header: the right-most one that is no trusted proxy, or else
the left-most one. -/
def forwardedIp (forwarded : String) (trustedNets : List Network) : Option String :=
  let parts := forwardedParts forwarded
  (parts.reverse.find? fun candidate ↦ !isIpInNetworks candidate trustedNets).or parts.head?

/-- `get_trusted_client_ip`, `none` when it raises since a text is no network. -/
def getTrustedClientIp (request : ProxiedRequest) (trustedCidrs : List String) : Option String :=
  (trustedNets trustedCidrs).map fun nets ↦
    if ¬isIpInNetworks request.peerIp nets then request.peerIp
    else
      match request.forwardedFor.bind (forwardedIp · nets) with
      | some candidate => candidate
      | none =>
        match request.realIp with
        | none => request.peerIp
        | some realIp => if strip realIp ≠ "" then strip realIp else request.peerIp

/-! ### The default proxies -/

/-- The family, the address and the prefix of a network. -/
def networkFields (net : Network) : Family × ℕ × ℕ :=
  (net.family, net.networkAddress, net.prefixlen)

theorem map_networkFields :
    defaultTrustedProxies.map networkFields = [(.v4, 127 * 2 ^ 24, 8), (.v6, 1, 128)] := by
  decide

/-- The default proxies are the loopback addresses. -/
theorem any_contains_default (ip : Address) :
    (defaultTrustedProxies.any fun net ↦ net.contains ip) = ip.isLoopback := by
  obtain ⟨first, rest, hlist, hfirst, hrest⟩ := List.map_eq_cons_iff.mp map_networkFields
  obtain ⟨second, none, rfl, hsecond, hnone⟩ := List.map_eq_cons_iff.mp hrest
  obtain rfl := List.map_eq_nil_iff.mp hnone
  simp only [networkFields, Prod.mk.injEq] at hfirst hsecond
  obtain ⟨hfirstFamily, hfirstAddress, hfirstLength⟩ := hfirst
  obtain ⟨hsecondFamily, hsecondAddress, hsecondLength⟩ := hsecond
  rw [hlist, List.any_cons, List.any_cons, List.any_nil, Bool.or_false]
  cases ip with
  | v4 value =>
    simp only [Network.contains, Address.isLoopback, hfirstFamily, hfirstAddress, hfirstLength,
      hsecondFamily, reduceCtorEq, false_and, true_and, decide_false, Bool.or_false]
    exact decide_eq_decide.mpr (by omega)
  | v6 value =>
    simp only [Network.contains, Address.isLoopback, hfirstFamily, hsecondFamily, hsecondAddress,
      hsecondLength, reduceCtorEq, false_and, true_and, decide_false, Bool.false_or]
    exact decide_eq_decide.mpr (by omega)

/-- An address is trusted by default when it is a loopback address. -/
theorem isIpInNetworks_default (ipStr : String) :
    isIpInNetworks ipStr defaultTrustedProxies =
      (ipAddress (strip ipStr)).any Address.isLoopback := by
  rw [isIpInNetworks]
  cases ipAddress (strip ipStr) with
  | none => rfl
  | some ip =>
    show (if defaultTrustedProxies ≠ [] then defaultTrustedProxies
      else defaultTrustedProxies).any (fun net ↦ net.contains ip) = ip.isLoopback
    rw [ite_self]
    exact any_contains_default ip

/-! ### The right-most untrusted entry -/

/-- An entry of the header that is no trusted proxy, and the entries behind it that are. -/
structure RightmostUntrusted (nets : List Network) (forwarded entry : String)
    (trusted : List String) : Prop where
  parts_eq : ∃ before, forwardedParts forwarded = before ++ entry :: trusted
  untrusted : isIpInNetworks entry nets = false
  trusted : ∀ other ∈ trusted, isIpInNetworks other nets = true

section Rightmost

variable {nets : List Network} {forwarded entry : String} {trusted : List String}

/-- The entries of two texts with a comma between them are those of both. -/
theorem forwardedParts_append (front rest : String) :
    forwardedParts (front ++ "," ++ rest) = forwardedParts front ++ forwardedParts rest := by
  have hchars : (front ++ "," ++ rest).toList = front.toList ++ ',' :: rest.toList := by
    simp
  rw [forwardedParts, hchars, splitChars_append_cons, List.map_append, List.filter_append]
  rfl

/-- What is put in front of a header does not change its right-most untrusted entry. -/
theorem RightmostUntrusted.prepend (hentry : RightmostUntrusted nets forwarded entry trusted)
    (front : String) : RightmostUntrusted nets (front ++ "," ++ forwarded) entry trusted := by
  obtain ⟨⟨before, hparts⟩, huntrusted, htrusted⟩ := hentry
  refine ⟨⟨forwardedParts front ++ before, ?_⟩, huntrusted, htrusted⟩
  rw [forwardedParts_append, hparts, List.append_assoc]

/-- The right-most untrusted entry is the one that is taken. -/
theorem RightmostUntrusted.forwardedIp_eq
    (hentry : RightmostUntrusted nets forwarded entry trusted) :
    forwardedIp forwarded nets = some entry := by
  obtain ⟨⟨before, hparts⟩, huntrusted, htrusted⟩ := hentry
  have hbehind : trusted.reverse.find? (fun candidate ↦ !isIpInNetworks candidate nets) = none := by
    refine List.find?_eq_none.mpr fun other hother ↦ ?_
    simp [htrusted other (List.mem_reverse.mp hother)]
  have hfind : (before ++ entry :: trusted).reverse.find?
      (fun candidate ↦ !isIpInNetworks candidate nets) = some entry := by
    rw [List.reverse_append, List.reverse_cons, List.find?_append, List.find?_append, hbehind,
      Option.none_or, List.find?_cons_of_pos (by simp [huntrusted]), Option.some_or]
  rw [forwardedIp, hparts, hfind, Option.some_or]

/-- A header has a right-most untrusted entry when it has an untrusted one. -/
theorem exists_rightmostUntrusted_iff :
    (∃ entry trusted, RightmostUntrusted nets forwarded entry trusted) ↔
      ∃ entry ∈ forwardedParts forwarded, isIpInNetworks entry nets = false := by
  constructor
  · rintro ⟨entry, trusted, ⟨before, hparts⟩, huntrusted, -⟩
    refine ⟨entry, ?_, huntrusted⟩
    rw [hparts]
    exact List.mem_append_right _ (List.mem_cons_self ..)
  · suffices hparts : ∀ parts : List String, (∃ entry ∈ parts, isIpInNetworks entry nets = false) →
        ∃ before entry trusted, parts = before ++ entry :: trusted ∧
          isIpInNetworks entry nets = false ∧
          ∀ other ∈ trusted, isIpInNetworks other nets = true by
      intro hentry
      obtain ⟨before, entry, trusted, hsplit, huntrusted, htrusted⟩ := hparts _ hentry
      exact ⟨entry, trusted, ⟨before, hsplit⟩, huntrusted, htrusted⟩
    intro parts
    induction parts using List.reverseRecOn with
    | nil =>
      rintro ⟨entry, hentry, -⟩
      exact absurd hentry List.not_mem_nil
    | append_singleton parts last ih =>
      rintro ⟨entry, hentry, huntrusted⟩
      cases hlast : isIpInNetworks last nets with
      | false =>
        exact ⟨parts, last, [], rfl, hlast, fun other hother ↦ absurd hother List.not_mem_nil⟩
      | true =>
        have hearlier : entry ∈ parts := by
          rcases List.mem_append.mp hentry with hearlier | hsame
          · exact hearlier
          · rw [List.mem_singleton.mp hsame, hlast] at huntrusted
            exact absurd huntrusted (by decide)
        obtain ⟨before, found, trusted, rfl, hfound, htrusted⟩ := ih ⟨entry, hearlier, huntrusted⟩
        refine ⟨before, found, trusted ++ [last], by simp, hfound, fun other hother ↦ ?_⟩
        rcases List.mem_append.mp hother with hold | hsame
        · exact htrusted other hold
        · rw [List.mem_singleton.mp hsame, hlast]

end Rightmost

/-! ### Two requests -/

/-- The peer of a request is a trusted proxy. -/
def ProxiedRequest.PeerTrusted (request : ProxiedRequest) (trustedCidrs : List String) : Prop :=
  ∃ nets, trustedNets trustedCidrs = some nets ∧ isIpInNetworks request.peerIp nets = true

/-- The address does not depend on what a client can put into the header `X-Forwarded-For`: with an
untrusted peer on nothing of it, and with a trusted one only on what stands from the right-most
untrusted entry on, which it is. -/
structure NotSpoofable (request : ProxiedRequest) (trustedCidrs : List String) : Prop where
  ignored : ¬request.PeerTrusted trustedCidrs → ∀ first second : Option String,
    getTrustedClientIp { request with forwardedFor := first } trustedCidrs =
      getTrustedClientIp { request with forwardedFor := second } trustedCidrs
  rightmost : request.PeerTrusted trustedCidrs →
    ∀ nets, trustedNets trustedCidrs = some nets → ∀ first second entry trusted,
      RightmostUntrusted nets first entry trusted → RightmostUntrusted nets second entry trusted →
        getTrustedClientIp { request with forwardedFor := some first } trustedCidrs = some entry ∧
        getTrustedClientIp { request with forwardedFor := some second } trustedCidrs = some entry
  prepended : request.PeerTrusted trustedCidrs →
    ∀ nets, trustedNets trustedCidrs = some nets → ∀ front forwarded entry trusted,
      RightmostUntrusted nets forwarded entry trusted →
        getTrustedClientIp { request with forwardedFor := some (front ++ "," ++ forwarded) }
          trustedCidrs = some entry

section TwoRequests

variable {request : ProxiedRequest} {trustedCidrs : List String} {nets : List Network}
  {forwarded entry : String} {trusted : List String}

/-- The header does not change the peer. -/
theorem peerIp_forwardedFor (request : ProxiedRequest) (header : Option String) :
    ({ request with forwardedFor := header } : ProxiedRequest).peerIp = request.peerIp :=
  rfl

/-- Behind a trusted proxy the right-most untrusted entry is the address. -/
theorem getTrustedClientIp_of_rightmost (hnets : trustedNets trustedCidrs = some nets)
    (hpeer : isIpInNetworks request.peerIp nets = true)
    (hentry : RightmostUntrusted nets forwarded entry trusted) :
    getTrustedClientIp { request with forwardedFor := some forwarded } trustedCidrs =
      some entry := by
  rw [getTrustedClientIp, hnets, Option.map_some, peerIp_forwardedFor,
    if_neg (not_not.mpr hpeer), Option.bind_some, hentry.forwardedIp_eq]

/-- With an untrusted peer the address is that of the peer. -/
theorem getTrustedClientIp_of_untrusted (hnets : trustedNets trustedCidrs = some nets)
    (hpeer : isIpInNetworks request.peerIp nets = false) :
    getTrustedClientIp request trustedCidrs = some request.peerIp := by
  rw [getTrustedClientIp, hnets, Option.map_some, if_pos (by simp [hpeer])]

/-- The address cannot be spoofed. -/
theorem notSpoofable (request : ProxiedRequest) (trustedCidrs : List String) :
    NotSpoofable request trustedCidrs := by
  refine ⟨fun hpeer first second ↦ ?_,
    fun ⟨_, htrusted, hpeer⟩ nets hnets first second entry trusted hfirst hsecond ↦ ?_,
    fun ⟨_, htrusted, hpeer⟩ nets hnets front forwarded entry trusted hentry ↦ ?_⟩
  · cases hnets : trustedNets trustedCidrs with
    | none => rw [getTrustedClientIp, getTrustedClientIp, hnets, Option.map_none, Option.map_none]
    | some nets =>
      have huntrusted : isIpInNetworks request.peerIp nets = false :=
        Bool.eq_false_iff.mpr fun htrusted ↦ hpeer ⟨nets, hnets, htrusted⟩
      have hsame : ∀ header, getTrustedClientIp { request with forwardedFor := header }
          trustedCidrs = some request.peerIp := by
        intro header
        rw [← peerIp_forwardedFor request header] at huntrusted ⊢
        exact getTrustedClientIp_of_untrusted hnets huntrusted
      rw [hsame, hsame]
  · obtain rfl := Option.some.inj (htrusted.symm.trans hnets)
    exact ⟨getTrustedClientIp_of_rightmost hnets hpeer hfirst,
      getTrustedClientIp_of_rightmost hnets hpeer hsecond⟩
  · obtain rfl := Option.some.inj (htrusted.symm.trans hnets)
    exact getTrustedClientIp_of_rightmost hnets hpeer (hentry.prepend front)

end TwoRequests

/-! ### Behind the reverse proxy -/

/-- `$proxy_add_x_forwarded_for`: the address of the client, behind the header that it sent. -/
def proxyAddXForwardedFor (header : Option String) (remoteAddr : String) : String :=
  match header with
  | none => remoteAddr
  | some header => header ++ "," ++ (" " ++ remoteAddr)

section Proxy

variable {request : ProxiedRequest} {trustedCidrs : List String} {nets : List Network}
  {remoteAddr : String}

/-- The text of an address: neither empty nor with white space or commas in it. -/
structure IsAddressText (text : String) : Prop where
  ne_empty : text ≠ ""
  isSpace_eq_false : ∀ char ∈ text.toList, isSpace char = false
  ne_comma : ∀ char ∈ text.toList, char ≠ ','

theorem IsAddressText.strip_eq (hremote : IsAddressText remoteAddr) :
    strip remoteAddr = remoteAddr := by
  rw [strip, stripChars_eq_self hremote.isSpace_eq_false, String.ofList_toList]

theorem IsAddressText.strip_space (hremote : IsAddressText remoteAddr) :
    strip (" " ++ remoteAddr) = remoteAddr := by
  have hchars : (" " ++ remoteAddr).toList = ' ' :: remoteAddr.toList := by simp
  have hspace : stripChars (' ' :: remoteAddr.toList) = stripChars remoteAddr.toList := by
    rw [stripChars, List.dropWhile_cons_of_pos (by decide)]
    rfl
  rw [strip, hchars, hspace]
  exact hremote.strip_eq

/-- The header of one address. -/
theorem IsAddressText.forwardedParts_eq (hremote : IsAddressText remoteAddr) :
    forwardedParts remoteAddr = [remoteAddr] ∧
      forwardedParts (" " ++ remoteAddr) = [remoteAddr] := by
  have hspaced : ∀ char ∈ (" " ++ remoteAddr).toList, char ≠ ',' := by
    intro char hchar
    have hchars : (" " ++ remoteAddr).toList = ' ' :: remoteAddr.toList := by simp
    rw [hchars] at hchar
    rcases List.mem_cons.mp hchar with rfl | hchar
    · decide
    · exact hremote.ne_comma char hchar
  constructor
  · rw [forwardedParts, splitChars_of_forall_ne hremote.ne_comma, List.map_singleton,
      String.ofList_toList, hremote.strip_eq]
    exact List.filter_cons_of_pos (decide_eq_true hremote.ne_empty)
  · rw [forwardedParts, splitChars_of_forall_ne hspaced, List.map_singleton, String.ofList_toList,
      hremote.strip_space]
    exact List.filter_cons_of_pos (decide_eq_true hremote.ne_empty)

/-- The address that the proxy appends is the right-most untrusted entry. -/
theorem rightmostUntrusted_proxied (hremote : IsAddressText remoteAddr)
    (huntrusted : isIpInNetworks remoteAddr nets = false) (header : Option String) :
    RightmostUntrusted nets (proxyAddXForwardedFor header remoteAddr) remoteAddr [] := by
  have hnone : ∀ other ∈ ([] : List String), isIpInNetworks other nets = true :=
    fun other hother ↦ absurd hother List.not_mem_nil
  obtain ⟨hparts, hspaced⟩ := hremote.forwardedParts_eq
  cases header with
  | none => exact ⟨⟨[], hparts⟩, huntrusted, hnone⟩
  | some header =>
    have hentry : RightmostUntrusted nets (" " ++ remoteAddr) remoteAddr [] :=
      ⟨⟨[], hspaced⟩, huntrusted, hnone⟩
    exact hentry.prepend header

/-- Behind the proxy the address is the one that the proxy saw, whatever the client sent. -/
theorem getTrustedClientIp_proxied (hnets : trustedNets trustedCidrs = some nets)
    (hpeer : isIpInNetworks request.peerIp nets = true) (hremote : IsAddressText remoteAddr)
    (huntrusted : isIpInNetworks remoteAddr nets = false) (header : Option String) :
    getTrustedClientIp
        { request with forwardedFor := some (proxyAddXForwardedFor header remoteAddr) }
        trustedCidrs = some remoteAddr :=
  getTrustedClientIp_of_rightmost hnets hpeer
    (rightmostUntrusted_proxied hremote huntrusted header)

/-- The key of a login, under which its failures are counted. -/
def loginKey (lower : String → String) (request : ProxiedRequest) (username : String) :
    Option LockoutKey :=
  (getTrustedClientIp request []).map fun clientIp ↦ getLockoutKey lower clientIp username

/-- Behind the proxy on a loopback address, a client from elsewhere has one key for a user name,
whatever header it sends. -/
theorem loginKey_proxied (lower : String → String) (username : String)
    (hpeer : (ipAddress (strip request.peerIp)).any Address.isLoopback = true)
    (hremote : IsAddressText remoteAddr)
    (huntrusted : (ipAddress remoteAddr).any Address.isLoopback = false) (header : Option String) :
    loginKey lower
        { request with forwardedFor := some (proxyAddXForwardedFor header remoteAddr) } username =
      some (getLockoutKey lower remoteAddr username) := by
  have hnets : trustedNets [] = some defaultTrustedProxies := rfl
  rw [← isIpInNetworks_default] at hpeer
  rw [← hremote.strip_eq, ← isIpInNetworks_default] at huntrusted
  rw [loginKey, getTrustedClientIp_proxied hnets hpeer hremote huntrusted, Option.map_some]

end Proxy

end Lnmp.Sessions
