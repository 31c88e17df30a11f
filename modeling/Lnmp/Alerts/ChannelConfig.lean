import Lnmp.Foundation.Dict
import Lnmp.Foundation.Http
import Lnmp.Foundation.Uuid
import Mathlib.Data.List.Infix

/-!
# The secrets of an alert channel

`PUT /alerts/channels/{id}` (`routers/alerts.py`) merges the configuration that it is sent into the
one that is stored encrypted (`services/crypto_service.py`). The clients see secrets masked with
bullets, and a mask that comes back stands for the stored secret.

A stored configuration that cannot be decrypted counts as empty, and a mask without a stored secret
is taken for a secret: `secretsPreserved_iff` says when an update loses no secret and stores no
mask.
-/

set_option autoImplicit false
set_option relaxedAutoImplicit false

namespace Lnmp.Alerts

open Lnmp.Foundation

/-! ### Configurations -/

/-- A JSON value. What is neither null nor a text is known by its JSON text, and by whether Python
takes it for true. -/
inductive JsonValue
  | null
  | string (text : String)
  | other (json : String) (isTruthy : Bool)
  deriving DecidableEq

/-- A value of a configuration. -/
inductive ConfigValue
  | value (value : JsonValue)
  | object (members : Dict String JsonValue)
  deriving DecidableEq

/-- The configuration of a channel. -/
abbrev ChannelConfig := Dict String ConfigValue

/-- `"•" in text`. The longer runs of bullets that the source looks for contain one. -/
def isMasked (text : String) : Bool := '•' ∈ text.toList

/-- `value if isinstance(value, dict) else {}`. -/
def membersOf : Option ConfigValue → Dict String JsonValue
  | some (.object members) => members
  | _ => Dict.empty

/-- One header of `_merge_channel_config`. -/
def mergeHeader (existingHeaders mergedHeaders : Dict String JsonValue)
    (header : String × JsonValue) : Dict String JsonValue :=
  match header.2 with
  | .null => mergedHeaders.erase header.1
  | .string text =>
    if isMasked text then
      match existingHeaders.get? header.1 with
      | some stored => mergedHeaders.set header.1 stored
      | none => mergedHeaders.set header.1 (.string text)
    else mergedHeaders.set header.1 (.string text)
  | .other json isTruthy => mergedHeaders.set header.1 (.other json isTruthy)

/-- One key of `_merge_channel_config`. -/
def mergeEntry (existingCfg mergedCfg : ChannelConfig) (entry : String × ConfigValue) :
    ChannelConfig :=
  match entry.2 with
  | .object members =>
    if entry.1 = "headers" then
      let existingHeaders := membersOf (mergedCfg.get? entry.1)
      mergedCfg.set entry.1
        (.object (members.entries.foldl (mergeHeader existingHeaders) existingHeaders))
    else mergedCfg.set entry.1 (.object members)
  | .value (.string text) =>
    -- A mask that comes back keeps the stored value.
    if isMasked text ∧ entry.1 ∈ existingCfg.keys then mergedCfg
    else mergedCfg.set entry.1 (.value (.string text))
  | .value value => mergedCfg.set entry.1 (.value value)

/-- `_merge_channel_config`. -/
def mergeChannelConfig (existingCfg newCfg : ChannelConfig) : ChannelConfig :=
  newCfg.entries.foldl (mergeEntry existingCfg) existingCfg

/-! ### Encryption -/

/-- What a column decrypts to: the JSON text of a configuration, or a text that is not JSON. -/
inductive Plaintext
  | config (config : ChannelConfig)
  | other (text : String)
  deriving DecidableEq

/-- AES-256-GCM under the key that is derived from a secret. -/
structure Cipher (Nonce Ciphertext : Type) where
  encrypt : String → Nonce → Plaintext → Ciphertext
  decrypt : String → Nonce → Ciphertext → Option Plaintext
  decrypt_encrypt : ∀ secret nonce plaintext,
    decrypt secret nonce (encrypt secret nonce plaintext) = some plaintext
  decrypt_of_ne : ∀ secret other nonce plaintext, other ≠ secret →
    decrypt other nonce (encrypt secret nonce plaintext) = none

/-- The value of the column `config`: `ENC:v1:` and a nonce and a ciphertext in base 64, `ENC:v1:`
and something else, or a text without this prefix. -/
inductive StoredConfig (Nonce Ciphertext : Type)
  | envelope (nonce : Nonce) (ciphertext : Ciphertext)
  | malformed
  | plain (plaintext : Plaintext)
  deriving DecidableEq

/-- The settings of the keys, of `SecuritySettings`. -/
structure KeySettings where
  secretKey : String
  cryptoKey : Option String
  fallbackCryptoKeys : List String

/-- `effective_crypto_key`. -/
def KeySettings.effectiveCryptoKey (settings : KeySettings) : String :=
  match settings.cryptoKey with
  | some key => if key ≠ "" then key else settings.secretKey
  | none => settings.secretKey

/-- `candidate_keys`: the effective key first, then the fallback keys. -/
def KeySettings.candidateKeys (settings : KeySettings) : List String :=
  settings.fallbackCryptoKeys.foldl (fun keys key ↦
    if key ≠ "" ∧ key ∉ keys then keys ++ [key] else keys) [settings.effectiveCryptoKey]

variable {Nonce Ciphertext : Type}

/-- `encrypt_secret` of the JSON text of a configuration, which is not empty and has no prefix. -/
def encryptSecret (cipher : Cipher Nonce Ciphertext) (settings : KeySettings) (nonce : Nonce)
    (config : ChannelConfig) : StoredConfig Nonce Ciphertext :=
  .envelope nonce (cipher.encrypt settings.effectiveCryptoKey nonce (.config config))

/-- `decrypt_secret`, `none` where it raises. -/
def decryptSecret (cipher : Cipher Nonce Ciphertext) (settings : KeySettings) :
    StoredConfig Nonce Ciphertext → Option Plaintext
  | .envelope nonce ciphertext =>
    settings.candidateKeys.findSome? fun key ↦ cipher.decrypt key nonce ciphertext
  | .malformed => none
  | .plain plaintext => some plaintext

/-- `_decrypt_config_dict`. -/
def decryptConfigDict (cipher : Cipher Nonce Ciphertext) (settings : KeySettings)
    (stored : StoredConfig Nonce Ciphertext) : ChannelConfig :=
  match decryptSecret cipher settings stored with
  | some (.config config) => config
  | _ => Dict.empty

/-! ### Requests -/

/-- The types of channels. -/
inductive ChannelType
  | teams
  | discord
  | slack
  | emailSmtp
  | genericWebhook
  deriving DecidableEq

/-- A row of `alert_channels`. -/
structure AlertChannel (Nonce Ciphertext : Type) where
  name : String
  channelType : ChannelType
  isEnabled : Bool
  config : StoredConfig Nonce Ciphertext
  endpointIds : List Uuid
  subnetFilters : List String
  severityFilters : List String
  deriving DecidableEq

/-- The body of an update. -/
structure AlertChannelUpdate where
  name : Option String
  channelType : Option ChannelType
  isEnabled : Option Bool
  config : Option ChannelConfig
  endpointIds : Option (List Uuid)
  subnetFilters : Option (List String)
  severityFilters : Option (List String)

/-- A value that Python takes for true. -/
def ConfigValue.isTruthy : ConfigValue → Bool
  | .value .null => false
  | .value (.string text) => text ≠ ""
  | .value (.other _ isTruthy) => isTruthy
  | .object members => !members.isEmpty

/-- `validate_outbound_url` of a URL, and of `http://` and a host: the message of its error. It
looks names up, and its answers change. -/
structure UrlValidator where
  webhookUrl : String → Option String
  smtpHost : ConfigValue → Option String

/-- The validation of the merged configuration. -/
def validateConfig (validator : UrlValidator) (channelType : ChannelType)
    (mergedCfg : ChannelConfig) : Except HttpError Unit :=
  match channelType with
  | .emailSmtp =>
    match (mergedCfg.get? "smtp_host").filter ConfigValue.isTruthy with
    | none => .error ⟨400, "smtp_host is required for EMAIL_SMTP channel."⟩
    | some host => ((validator.smtpHost host).map (HttpError.mk 400)).elim (.ok ()) .error
  | _ =>
    match (mergedCfg.get? "webhook_url").filter ConfigValue.isTruthy with
    | none => .ok ()
    | some (.value (.string url)) =>
      ((validator.webhookUrl url).map (HttpError.mk 400)).elim (.ok ()) .error
    -- The URL of something that is not a text raises an error that is not caught.
    | some _ => .error ⟨500, "Internal Server Error"⟩

/-- The columns of a channel that an update sets as they are sent. -/
def AlertChannel.assign (channel : AlertChannel Nonce Ciphertext) (payload : AlertChannelUpdate) :
    AlertChannel Nonce Ciphertext where
  name := payload.name.getD channel.name
  channelType := payload.channelType.getD channel.channelType
  isEnabled := payload.isEnabled.getD channel.isEnabled
  config := channel.config
  endpointIds := payload.endpointIds.getD channel.endpointIds
  subnetFilters := payload.subnetFilters.getD channel.subnetFilters
  severityFilters := payload.severityFilters.getD channel.severityFilters

/-- `update_alert_channel`: what is committed. The nonce is a random one. -/
def updateAlertChannel (cipher : Cipher Nonce Ciphertext) (settings : KeySettings)
    (validator : UrlValidator) (nonce : Nonce) (payload : AlertChannelUpdate)
    (channel : Option (AlertChannel Nonce Ciphertext)) :
    Except HttpError (AlertChannel Nonce Ciphertext) :=
  match channel with
  | none => .error ⟨404, "Alert channel not found."⟩
  | some channel =>
    let assigned := channel.assign payload
    match payload.config with
    | none => .ok assigned
    | some newCfg =>
      let existingCfg := decryptConfigDict cipher settings channel.config
      let mergedCfg := mergeChannelConfig existingCfg newCfg
      match validateConfig validator assigned.channelType mergedCfg with
      | .error error => .error error
      | .ok () => .ok { assigned with config := encryptSecret cipher settings nonce mergedCfg }

/-! ### Secrets -/

/-- `str.lower`, as far as it gives the letters of the marks below. -/
def lowerText (text : String) : List Char :=
  text.toList.map fun char ↦ if char.toNat = 0x212A then 'k' else char.toLower

/-- The value of a header is a secret. -/
def isSensitiveHeader (name : String) : Bool :=
  ["auth", "token", "key", "secret"].any fun mark ↦ mark.toList <:+: lowerText name

/-- A secret of a channel, by where it stands in the configuration. -/
inductive Secret
  | field (key : String) (hkey : key = "webhook_url" ∨ key = "password")
  | header (name : String) (hname : isSensitiveHeader name = true)

/-- A mask. -/
def ConfigValue.isMask : ConfigValue → Bool
  | .value (.string text) => isMasked text
  | _ => false

/-- What an update sends for a header, by what it sends for the headers as a whole: something else
than an object is sent for each of them. -/
def sentForHeader (name : String) : Option ConfigValue → Option ConfigValue
  | some (.object members) => (members.get? name).map ConfigValue.value
  | sent => sent

namespace Secret

/-- The value of a secret in a configuration. -/
def valueIn : Secret → ChannelConfig → Option ConfigValue
  | field key _, config => config.get? key
  | header name _, config => ((membersOf (config.get? "headers")).get? name).map ConfigValue.value

/-- What an update sends for a secret. -/
def sentBy : Secret → ChannelConfig → Option ConfigValue
  | field key _, newCfg => newCfg.get? key
  | header name _, newCfg => sentForHeader name (newCfg.get? "headers")

/-- An update neither replaces a secret by a value without a mask nor deletes it: it leaves it out,
or sends a mask. -/
def IsKeptBy (secret : Secret) (newCfg : ChannelConfig) : Prop :=
  ∀ sent ∈ secret.sentBy newCfg, sent.isMask = true

end Secret

/-- The secrets after an update: those that it does not replace or delete are the ones from before,
and no secret is a mask. -/
structure SecretsPreserved (before : ChannelConfig) (newCfg : Option ChannelConfig)
    (after : ChannelConfig) : Prop where
  kept : ∀ secret : Secret, (∀ new ∈ newCfg, secret.IsKeptBy new) →
    secret.valueIn after = secret.valueIn before
  unmasked : ∀ secret : Secret, ∀ value ∈ secret.valueIn after, value.isMask = false

/-- The configuration that a column holds, for whoever has its key. -/
def StoredConfig.Holds (cipher : Cipher Nonce Ciphertext) (stored : StoredConfig Nonce Ciphertext)
    (config : ChannelConfig) : Prop :=
  ∃ key nonce, stored = .envelope nonce (cipher.encrypt key nonce (.config config))

/-- No secret that the update keeps is stored as a mask; and where the configured keys decrypt the
configuration, a secret that is sent as a mask is stored, and where they do not, the update replaces
or deletes all secrets that are stored, and sends none as a mask. -/
structure UpdateKeepsSecrets (settings : KeySettings) (key : String) (before : ChannelConfig)
    (newCfg : Option ChannelConfig) : Prop where
  unmasked : ∀ secret : Secret, (∀ new ∈ newCfg, secret.IsKeptBy new) →
    ∀ value ∈ secret.valueIn before, value.isMask = false
  readable : key ∈ settings.candidateKeys → ∀ new ∈ newCfg, ∀ secret : Secret,
    secret.IsKeptBy new → secret.valueIn new ≠ none → secret.valueIn before ≠ none
  unreadable : key ∉ settings.candidateKeys → ∀ new ∈ newCfg, ∀ secret : Secret,
    secret.IsKeptBy new → secret.valueIn new = none ∧ secret.valueIn before = none

/-! ### What a merge leaves -/

section Merge

variable {existingCfg newCfg : ChannelConfig} {secret : Secret}

/-- What is stored under a header after a merge that sends a value for it. -/
def mergedHeader (stored : Option JsonValue) : JsonValue → Option JsonValue
  | .null => none
  | .string text => if isMasked text then stored.or (some (.string text)) else some (.string text)
  | .other json isTruthy => some (.other json isTruthy)

theorem get?_mergeHeader (existingHeaders mergedHeaders : Dict String JsonValue)
    (header : String × JsonValue) (name : String) :
    (mergeHeader existingHeaders mergedHeaders header).get? name =
      if name = header.1 then mergedHeader (existingHeaders.get? name) header.2
      else mergedHeaders.get? name := by
  obtain ⟨sent, value⟩ := header
  unfold mergeHeader mergedHeader
  by_cases hname : name = sent
  · subst hname
    cases value with
    | null => simp [Dict.get?_erase]
    | string text =>
      by_cases hmask : isMasked text = true
      · cases existingHeaders.get? name <;> simp [hmask, Dict.get?_set]
      · simp [hmask, Dict.get?_set]
    | other json isTruthy => simp [Dict.get?_set]
  · cases value with
    | null => simp [Dict.get?_erase, hname]
    | string text =>
      by_cases hmask : isMasked text = true
      · cases existingHeaders.get? sent <;> simp [hmask, Dict.get?_set, hname]
      · simp [hmask, Dict.get?_set, hname]
    | other json isTruthy => simp [Dict.get?_set, hname]

/-- The headers that a merge leaves. -/
theorem get?_mergedHeaders (existingHeaders members : Dict String JsonValue) (name : String) :
    (members.entries.foldl (mergeHeader existingHeaders) existingHeaders).get? name =
      (members.get? name).elim (existingHeaders.get? name)
        (mergedHeader (existingHeaders.get? name)) :=
  Dict.get?_foldl_entries (mergeHeader existingHeaders)
    (fun name value _ ↦ mergedHeader (existingHeaders.get? name) value)
    (get?_mergeHeader existingHeaders) existingHeaders members name

/-- What is stored under a key after a merge that sends a value for it. -/
def mergedEntry (existingCfg : ChannelConfig) (key : String) (value : ConfigValue)
    (current : Option ConfigValue) : Option ConfigValue :=
  match value with
  | .object members =>
    if key = "headers" then
      some (.object (members.entries.foldl (mergeHeader (membersOf current)) (membersOf current)))
    else some (.object members)
  | .value value =>
    if (ConfigValue.value value).isMask ∧ key ∈ existingCfg.keys then current
    else some (.value value)

theorem get?_mergeEntry (existingCfg mergedCfg : ChannelConfig) (entry : String × ConfigValue)
    (key : String) :
    (mergeEntry existingCfg mergedCfg entry).get? key =
      if key = entry.1 then mergedEntry existingCfg key entry.2 (mergedCfg.get? key)
      else mergedCfg.get? key := by
  obtain ⟨sent, value⟩ := entry
  unfold mergeEntry mergedEntry
  match value with
  | .object members =>
    by_cases hheaders : sent = "headers"
    · simp only [if_pos hheaders, Dict.get?_set]
      by_cases hkey : key = sent
      · simp [hkey, hheaders]
      · simp [hkey]
    · simp only [if_neg hheaders, Dict.get?_set]
      by_cases hkey : key = sent
      · simp [hkey, hheaders]
      · simp [hkey]
  | .value (.string text) =>
    by_cases hkept : isMasked text = true ∧ sent ∈ existingCfg.keys
    · by_cases hkey : key = sent
      · simp [hkey, hkept, ConfigValue.isMask]
      · simp [hkey, hkept]
    · by_cases hkey : key = sent
      · simp only [if_neg hkept, Dict.get?_set, hkey, if_true, ConfigValue.isMask]
      · simp only [if_neg hkept, Dict.get?_set, hkey, if_false]
  | .value .null => simp [Dict.get?_set, ConfigValue.isMask]
  | .value (.other json isTruthy) => simp [Dict.get?_set, ConfigValue.isMask]

/-- The configuration that a merge leaves. -/
theorem get?_mergeChannelConfig (existingCfg newCfg : ChannelConfig) (key : String) :
    (mergeChannelConfig existingCfg newCfg).get? key =
      (newCfg.get? key).elim (existingCfg.get? key) fun value ↦
        mergedEntry existingCfg key value (existingCfg.get? key) :=
  Dict.get?_foldl_entries (mergeEntry existingCfg) (mergedEntry existingCfg)
    (get?_mergeEntry existingCfg) existingCfg newCfg key

/-- A mask leaves what is stored, and is stored itself where there is nothing. -/
theorem mergedEntry_of_isMask {key : String} {value : ConfigValue} (hmask : value.isMask = true) :
    mergedEntry existingCfg key value (existingCfg.get? key) =
      (existingCfg.get? key).or (some value) := by
  cases value with
  | object members => exact absurd hmask Bool.false_ne_true
  | value value =>
    unfold mergedEntry
    cases hstored : existingCfg.get? key with
    | none =>
      have habsent := (Dict.get?_eq_none_iff existingCfg key).mp hstored
      exact if_neg fun hkept ↦ habsent hkept.2
    | some stored => exact if_pos ⟨hmask, Dict.mem_keys_of_get? hstored⟩

/-- A value without a mask that is sent for something else than the headers is stored. -/
theorem mergedEntry_of_not_isMask {key : String} {value : JsonValue}
    {current : Option ConfigValue} (hmask : ¬ (ConfigValue.value value).isMask = true) :
    mergedEntry existingCfg key (.value value) current = some (.value value) :=
  if_neg fun hkept ↦ hmask hkept.1

theorem mergedEntry_headers (existingCfg : ChannelConfig) (members : Dict String JsonValue)
    (current : Option ConfigValue) (name : String) :
    (membersOf (mergedEntry existingCfg "headers" (.object members) current)).get? name =
      (members.get? name).elim ((membersOf current).get? name)
        (mergedHeader ((membersOf current).get? name)) :=
  get?_mergedHeaders (membersOf current) members name

/-- A secret that an update keeps has its stored value after the merge, and where there is none, the
mask that the update sends for it. -/
theorem Secret.valueIn_mergeChannelConfig (hkept : secret.IsKeptBy newCfg) :
    secret.valueIn (mergeChannelConfig existingCfg newCfg) =
      (secret.valueIn existingCfg).or (secret.valueIn newCfg) := by
  cases secret with
  | field key hkey =>
    rw [valueIn, valueIn, valueIn, get?_mergeChannelConfig]
    cases hsent : newCfg.get? key with
    | none => exact (Option.or_none).symm
    | some value => exact mergedEntry_of_isMask (hkept value hsent)
  | header name hname =>
    rw [valueIn, valueIn, valueIn, get?_mergeChannelConfig]
    rw [IsKeptBy, sentBy] at hkept
    cases hsent : newCfg.get? "headers" with
    | none => exact (Option.or_none).symm
    | some value =>
      rw [hsent] at hkept
      cases value with
      | object members =>
        rw [Option.elim_some, mergedEntry_headers, membersOf]
        cases hheader : members.get? name with
        | none => exact (Option.or_none).symm
        | some header =>
          have hmask : (ConfigValue.value header).isMask = true :=
            hkept _ (Option.map_eq_some_iff.mpr ⟨header, hheader, rfl⟩)
          cases header with
          | string text =>
            have hmerged : ∀ stored, mergedHeader stored (.string text) =
              stored.or (some (.string text)) := fun stored ↦ if_pos hmask
            rw [Option.elim_some, hmerged]
            exact Option.map_or
          | null => exact absurd hmask Bool.false_ne_true
          | other json isTruthy => exact absurd hmask Bool.false_ne_true
      | value value =>
        rw [Option.elim_some, mergedEntry_of_isMask (hkept (.value value) rfl)]
        cases existingCfg.get? "headers" with
        | none => rfl
        | some stored => exact (Option.or_none).symm

/-- A secret that an update replaces or deletes is no mask after the merge. -/
theorem Secret.isMask_valueIn_mergeChannelConfig (hreplaced : ¬ secret.IsKeptBy newCfg)
    {value : ConfigValue}
    (hvalue : secret.valueIn (mergeChannelConfig existingCfg newCfg) = some value) :
    value.isMask = false := by
  rw [IsKeptBy] at hreplaced
  push Not at hreplaced
  obtain ⟨sent, hsent, hmask⟩ := hreplaced
  cases secret with
  | field key hkey =>
    rw [valueIn, get?_mergeChannelConfig, show newCfg.get? key = some sent from hsent,
      Option.elim_some] at hvalue
    cases sent with
    | object members =>
      have hheaders : key ≠ "headers" := by
        rcases hkey with rfl | rfl <;> decide
      rw [mergedEntry, if_neg hheaders] at hvalue
      exact Option.some.inj hvalue ▸ rfl
    | value sent =>
      rw [mergedEntry_of_not_isMask hmask] at hvalue
      exact Option.some.inj hvalue ▸ Bool.not_eq_true _ ▸ hmask
  | header name hname =>
    rw [valueIn, get?_mergeChannelConfig] at hvalue
    rw [sentBy] at hsent
    cases hheaders : newCfg.get? "headers" with
    | none =>
      rw [hheaders] at hsent
      exact absurd hsent (Option.some_ne_none _).symm
    | some headers =>
      rw [hheaders] at hsent
      rw [hheaders, Option.elim_some] at hvalue
      cases headers with
      | object members =>
        obtain ⟨header, hheader, rfl⟩ := Option.map_eq_some_iff.mp hsent
        rw [mergedEntry_headers, hheader, Option.elim_some] at hvalue
        cases header with
        | null => cases hvalue
        | string text =>
          have hplain : ¬ isMasked text = true := hmask
          rw [mergedHeader, if_neg hplain] at hvalue
          exact Option.some.inj hvalue ▸ Bool.not_eq_true _ ▸ hmask
        | other json isTruthy => exact Option.some.inj hvalue ▸ rfl
      | value headers =>
        obtain rfl := Option.some.inj hsent
        rw [mergedEntry_of_not_isMask hmask] at hvalue
        cases hvalue

/-- What a merge stores for a secret that an update keeps is a mask. -/
theorem Secret.IsKeptBy.isMask (hkept : secret.IsKeptBy newCfg) {value : ConfigValue}
    (hvalue : secret.valueIn newCfg = some value) : value.isMask = true := by
  refine hkept value ?_
  cases secret with
  | field key hkey => exact hvalue
  | header name hname =>
    rw [valueIn] at hvalue
    rw [sentBy]
    cases hheaders : newCfg.get? "headers" with
    | none =>
      rw [hheaders] at hvalue
      cases hvalue
    | some headers =>
      rw [hheaders] at hvalue
      cases headers with
      | object members => exact hvalue
      | value headers => cases hvalue

theorem Secret.valueIn_empty (secret : Secret) : secret.valueIn Dict.empty = none := by
  cases secret <;> rfl

end Merge

/-! ### What an update stores -/

section Update

variable {cipher : Cipher Nonce Ciphertext} {settings : KeySettings}
  {validator : UrlValidator} {key : String} {nonce freshNonce : Nonce}
  {before after other : ChannelConfig} {payload : AlertChannelUpdate}
  {channel updated : AlertChannel Nonce Ciphertext}

/-- A configuration is decrypted when its key is configured, and counts as empty when it is not. -/
theorem decryptConfigDict_envelope (cipher : Cipher Nonce Ciphertext)
    (settings : KeySettings) (key : String) (nonce : Nonce) (config : ChannelConfig) :
    decryptConfigDict cipher settings
        (.envelope nonce (cipher.encrypt key nonce (.config config))) =
      if key ∈ settings.candidateKeys then config else Dict.empty := by
  have hfound : ∀ keys : List String,
      (keys.findSome? fun candidate ↦
        cipher.decrypt candidate nonce (cipher.encrypt key nonce (.config config))) =
        if key ∈ keys then some (.config config) else none := by
    intro keys
    induction keys with
    | nil => rfl
    | cons first rest ih =>
      rw [List.findSome?_cons, ih]
      by_cases hfirst : first = key
      · rw [hfirst, cipher.decrypt_encrypt, if_pos (List.mem_cons_self ..)]
      · rw [cipher.decrypt_of_ne _ _ _ _ hfirst]
        simp [Ne.symm hfirst]
  rw [decryptConfigDict, decryptSecret, hfound]
  split_ifs <;> rfl

/-- A column holds one configuration. -/
theorem StoredConfig.Holds.unique {stored : StoredConfig Nonce Ciphertext}
    (hafter : stored.Holds cipher after) (hother : stored.Holds cipher other) : after = other := by
  obtain ⟨key, nonce, rfl⟩ := hafter
  obtain ⟨otherKey, otherNonce, hsame⟩ := hother
  obtain ⟨rfl, hciphertext⟩ := StoredConfig.envelope.inj hsame
  have hdecrypted := cipher.decrypt_encrypt key nonce (.config after)
  rw [hciphertext] at hdecrypted
  by_cases hkey : key = otherKey
  · rw [hkey, cipher.decrypt_encrypt] at hdecrypted
    exact (Plaintext.config.inj (Option.some.inj hdecrypted)).symm
  · rw [cipher.decrypt_of_ne _ _ _ _ hkey] at hdecrypted
    cases hdecrypted

/-- The spec of an update that succeeds. -/
theorem config_updateAlertChannel
    (hupdate : updateAlertChannel cipher settings validator freshNonce payload (some channel) =
      .ok updated) :
    updated.config = (payload.config.map fun newCfg ↦
      encryptSecret cipher settings freshNonce
        (mergeChannelConfig (decryptConfigDict cipher settings channel.config) newCfg)).getD
      channel.config := by
  unfold updateAlertChannel at hupdate
  cases hconfig : payload.config with
  | none =>
    rw [hconfig] at hupdate
    cases hupdate
    rfl
  | some newCfg =>
    rw [hconfig] at hupdate
    dsimp only at hupdate
    split at hupdate
    · cases hupdate
    · cases hupdate
      rfl

/-- A merge preserves the secrets exactly when those that the update keeps come out as they were,
and were no masks. -/
theorem secretsPreserved_merge_iff (existingCfg before newCfg : ChannelConfig) :
    SecretsPreserved before (some newCfg) (mergeChannelConfig existingCfg newCfg) ↔
      ∀ secret : Secret, secret.IsKeptBy newCfg →
        (secret.valueIn existingCfg).or (secret.valueIn newCfg) = secret.valueIn before ∧
          ∀ value ∈ secret.valueIn before, value.isMask = false := by
  constructor
  · intro hpreserved secret hkept
    have hsame := hpreserved.kept secret fun new hnew ↦ Option.some.inj hnew ▸ hkept
    refine ⟨(Secret.valueIn_mergeChannelConfig hkept).symm.trans hsame, fun value hvalue ↦ ?_⟩
    exact hpreserved.unmasked secret value (hsame.trans hvalue)
  · intro hall
    refine ⟨fun secret hkept ↦ ?_, fun secret value hvalue ↦ ?_⟩
    · have hkeptNew := hkept newCfg rfl
      exact (Secret.valueIn_mergeChannelConfig hkeptNew).trans (hall secret hkeptNew).1
    · by_cases hkept : secret.IsKeptBy newCfg
      · obtain ⟨hsame, hunmasked⟩ := hall secret hkept
        rw [Secret.valueIn_mergeChannelConfig hkept, hsame] at hvalue
        exact hunmasked value hvalue
      · exact Secret.isMask_valueIn_mergeChannelConfig hkept hvalue

/-- The merge into a configuration that the configured keys decrypt. -/
theorem secretsPreserved_readable_iff (hkey : key ∈ settings.candidateKeys)
    (before newCfg : ChannelConfig) :
    SecretsPreserved before (some newCfg) (mergeChannelConfig before newCfg) ↔
      UpdateKeepsSecrets settings key before (some newCfg) := by
  rw [secretsPreserved_merge_iff]
  constructor
  · intro hall
    refine ⟨fun secret hkept ↦ (hall secret (hkept newCfg rfl)).2, fun _ new hnew secret hkept ↦ ?_,
      fun hother ↦ absurd hkey hother⟩
    obtain rfl := Option.some.inj hnew
    intro hsent hnone
    have hsame := (hall secret hkept).1
    rw [hnone, Option.none_or] at hsame
    exact hsent hsame
  · intro hkeeps secret hkept
    refine ⟨?_, hkeeps.unmasked secret fun new hnew ↦ Option.some.inj hnew ▸ hkept⟩
    cases hstored : secret.valueIn before with
    | some value => rfl
    | none =>
      rw [Option.none_or]
      by_contra hsent
      exact hkeeps.readable hkey newCfg rfl secret hkept hsent hstored

/-- The merge into nothing, for a configuration that they do not decrypt. -/
theorem secretsPreserved_unreadable_iff (hkey : key ∉ settings.candidateKeys)
    (before newCfg : ChannelConfig) :
    SecretsPreserved before (some newCfg) (mergeChannelConfig Dict.empty newCfg) ↔
      UpdateKeepsSecrets settings key before (some newCfg) := by
  rw [secretsPreserved_merge_iff]
  constructor
  · intro hall
    refine ⟨fun secret hkept ↦ (hall secret (hkept newCfg rfl)).2,
      fun hother ↦ absurd hother hkey, fun _ new hnew secret hkept ↦ ?_⟩
    obtain rfl := Option.some.inj hnew
    obtain ⟨hsame, hunmasked⟩ := hall secret hkept
    rw [Secret.valueIn_empty, Option.none_or] at hsame
    cases hsent : secret.valueIn newCfg with
    | none => exact ⟨rfl, hsame.symm.trans hsent⟩
    | some value =>
      -- what is kept and sent is a mask
      have hmask := hunmasked value (hsame.symm.trans hsent)
      rw [hkept.isMask hsent] at hmask
      cases hmask
  · intro hkeeps secret hkept
    obtain ⟨hsent, hstored⟩ := hkeeps.unreadable hkey newCfg rfl secret hkept
    refine ⟨?_, hkeeps.unmasked secret fun new hnew ↦ Option.some.inj hnew ▸ hkept⟩
    rw [Secret.valueIn_empty, Option.none_or, hsent, hstored]

/-- An update that leaves the configuration out. -/
theorem secretsPreserved_none_iff (settings : KeySettings) (key : String)
    (before : ChannelConfig) :
    SecretsPreserved before none before ↔ UpdateKeepsSecrets settings key before none := by
  constructor
  · intro hpreserved
    exact ⟨fun secret _ ↦ hpreserved.unmasked secret,
      fun _ _ hnew ↦ absurd hnew (Option.not_mem_none _),
      fun _ _ hnew ↦ absurd hnew (Option.not_mem_none _)⟩
  · intro hkeeps
    exact ⟨fun _ _ ↦ rfl, fun secret ↦
      hkeeps.unmasked secret fun _ hnew ↦ absurd hnew (Option.not_mem_none _)⟩

/-- An update preserves the secrets of the stored configuration exactly when it keeps them. -/
theorem secretsPreserved_iff (cipher : Cipher Nonce Ciphertext) (settings : KeySettings)
    (validator : UrlValidator) (key : String) (nonce freshNonce : Nonce) (before : ChannelConfig)
    (payload : AlertChannelUpdate) (channel updated : AlertChannel Nonce Ciphertext)
    (hstored : channel.config = .envelope nonce (cipher.encrypt key nonce (.config before)))
    (hupdate : updateAlertChannel cipher settings validator freshNonce payload (some channel) =
      .ok updated) :
    (∃ after, updated.config.Holds cipher after ∧
        SecretsPreserved before payload.config after) ↔
      UpdateKeepsSecrets settings key before payload.config := by
  have hconfig := config_updateAlertChannel hupdate
  have hunique : ∀ config, updated.config.Holds cipher config →
      ((∃ after, updated.config.Holds cipher after ∧
        SecretsPreserved before payload.config after) ↔
          SecretsPreserved before payload.config config) := fun config hholds ↦
    ⟨fun ⟨_, hafter, hpreserved⟩ ↦ hafter.unique hholds ▸ hpreserved,
      fun hpreserved ↦ ⟨config, hholds, hpreserved⟩⟩
  cases hnew : payload.config with
  | none =>
    rw [hnew] at hconfig hunique
    have hholds : updated.config.Holds cipher before := ⟨key, nonce, hconfig.trans hstored⟩
    rw [hunique before hholds, secretsPreserved_none_iff]
  | some newCfg =>
    rw [hnew, hstored, decryptConfigDict_envelope] at hconfig
    rw [hnew] at hunique
    have hholds : updated.config.Holds cipher (mergeChannelConfig
        (if key ∈ settings.candidateKeys then before else Dict.empty) newCfg) :=
      ⟨settings.effectiveCryptoKey, freshNonce, hconfig⟩
    rw [hunique _ hholds]
    split_ifs with hkey
    · exact secretsPreserved_readable_iff hkey before newCfg
    · exact secretsPreserved_unreadable_iff hkey before newCfg

end Update

/-! ### A rotated key -/

/-- A cipher whose ciphertexts show what they are made of. -/
def Cipher.transparent : Cipher ℕ (String × ℕ × Plaintext) where
  encrypt := fun secret nonce plaintext ↦ (secret, nonce, plaintext)
  decrypt := fun secret nonce ciphertext ↦
    if ciphertext.1 = secret ∧ ciphertext.2.1 = nonce then some ciphertext.2.2 else none
  decrypt_encrypt := fun _ _ _ ↦ if_pos ⟨rfl, rfl⟩
  decrypt_of_ne := fun _ _ _ _ hne ↦ if_neg fun hsame ↦ hne hsame.1.symm

/-- A validator that accepts all destinations. -/
def UrlValidator.acceptAll : UrlValidator where
  webhookUrl := fun _ ↦ none
  smtpHost := fun _ ↦ none

/-- The key of the settings has changed, and the old one is no fallback. -/
def rotatedSettings : KeySettings where
  secretKey := "new"
  cryptoKey := none
  fallbackCryptoKeys := []

/-- A webhook. -/
def sampleConfig : ChannelConfig :=
  Dict.empty.set "webhook_url" (.value (.string "https://example.org/hook"))

/-- The channel of the webhook, encrypted with the old key. -/
def sampleChannel : AlertChannel ℕ (String × ℕ × Plaintext) where
  name := "ops"
  channelType := .genericWebhook
  isEnabled := true
  config := .envelope 0 (Cipher.transparent.encrypt "old" 0 (.config sampleConfig))
  endpointIds := []
  subnetFilters := []
  severityFilters := ["DOWN"]

/-- An update that sets a header. -/
def sampleUpdate : AlertChannelUpdate where
  name := none
  channelType := none
  isEnabled := none
  config := some (Dict.empty.set "headers"
    (.object (Dict.empty.set "X-Team" (.string "network"))))
  endpointIds := none
  subnetFilters := none
  severityFilters := none

/-- The channel after the update. -/
def sampleUpdated : AlertChannel ℕ (String × ℕ × Plaintext) :=
  { sampleChannel with
    config := encryptSecret Cipher.transparent rotatedSettings 1
      (Dict.empty.set "headers" (.object (Dict.empty.set "X-Team" (.string "network")))) }

theorem updateAlertChannel_sampleUpdate :
    updateAlertChannel Cipher.transparent rotatedSettings UrlValidator.acceptAll 1 sampleUpdate
      (some sampleChannel) = .ok sampleUpdated := by
  rfl

theorem secretsPreserved_iff_sampleUpdate :
    (∃ after, sampleUpdated.config.Holds Cipher.transparent after ∧
        SecretsPreserved sampleConfig sampleUpdate.config after) ↔
      UpdateKeepsSecrets rotatedSettings "old" sampleConfig sampleUpdate.config :=
  secretsPreserved_iff Cipher.transparent rotatedSettings UrlValidator.acceptAll "old" 0 1
    sampleConfig sampleUpdate sampleChannel sampleUpdated rfl updateAlertChannel_sampleUpdate

/-- The update of a channel whose key has been rotated loses its webhook. -/
theorem webhook_lost_after_rotation :
    updateAlertChannel Cipher.transparent rotatedSettings UrlValidator.acceptAll 1 sampleUpdate
        (some sampleChannel) = .ok sampleUpdated ∧
      ¬ ∃ after, sampleUpdated.config.Holds Cipher.transparent after ∧
        SecretsPreserved sampleConfig sampleUpdate.config after := by
  refine ⟨updateAlertChannel_sampleUpdate, ?_⟩
  rintro ⟨after, hafter, hpreserved⟩
  obtain rfl := hafter.unique ⟨"new", 1, rfl⟩
  have hlost := hpreserved.kept (.field "webhook_url" (Or.inl rfl)) fun new hnew sent hsent ↦ by
    obtain rfl := Option.some.inj hnew
    exact absurd hsent (Option.not_mem_none sent)
  exact absurd hlost (by decide)

end Lnmp.Alerts
