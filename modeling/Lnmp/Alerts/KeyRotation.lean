import Lnmp.Alerts.ChannelConfig
import Lnmp.Foundation.Base64
import Lnmp.Foundation.InetNtop
import Lnmp.Foundation.JsonSyntax

/-!
# Stored configurations and key rotations

`encrypt_secret` and `decrypt_secret` (`services/crypto_service.py`) and `_decrypt_config_dict`
(`routers/alerts.py`) at the level of their texts: the configuration is written as JSON, encrypted,
and stored as `ENC:v1:` with the nonce and the ciphertext in base 64. It is read with the effective
key and, if that fails, with the fallback keys that are not empty.

A configuration survives a change of keys as long as its key is the effective one or a fallback key
that is not empty (`decryptConfigDict_encryptSecret`), whatever the other keys are and in whatever
order. An empty key is left out of the fallback keys, although it can be the effective one.
-/

set_option autoImplicit false
set_option relaxedAutoImplicit false

namespace Lnmp.Alerts.KeyRotation

open Lnmp.Foundation
open Base64 IpAddress JsonScan JsonSyntax JsonText

/-! ### Bytes and keys -/

/-- A byte string. -/
abbrev Bytes := List UInt8

/-- `text.encode("utf-8")`. -/
def encodeUtf8 (text : List Char) : Bytes := text.flatMap String.utf8EncodeChar

/-- `data.decode("utf-8")`, `none` where it raises an error. -/
def decodeUtf8 (data : Bytes) : Option (List Char) :=
  data.toByteArray.utf8Decode?.map Array.toList

theorem decodeUtf8_encodeUtf8 (text : List Char) : decodeUtf8 (encodeUtf8 text) = some text := by
  have hdecode := List.utf8Decode?_utf8Encode (l := text)
  rw [List.utf8Encode] at hdecode
  rw [decodeUtf8, encodeUtf8, hdecode]
  simp

/-- HKDF-SHA256 of a salt, an info and a master secret, and AES-256-GCM without associated data: a
ciphertext is decrypted under its own key, and refused under another one. -/
structure AesGcm (Key : Type) where
  hkdf : Bytes → Bytes → Bytes → Key
  encrypt : Key → Bytes → Bytes → Bytes
  decrypt : Key → Bytes → Bytes → Option Bytes
  decrypt_encrypt : ∀ key nonce plaintext,
    decrypt key nonce (encrypt key nonce plaintext) = some plaintext
  decrypt_of_ne : ∀ key other nonce plaintext, other ≠ key →
    decrypt other nonce (encrypt key nonce plaintext) = none

variable {Key F : Type} (aesgcm : AesGcm Key)

/-- `_SALT`. -/
def salt : Bytes := encodeUtf8 "lnmp-alert-crypto-salt-v1".toList

/-- `_INFO`. -/
def info : Bytes := encodeUtf8 "lnmp-aes-256-gcm-key-derivation".toList

/-- `_derive_key`. -/
def deriveKey (secretStr : String) : Key := aesgcm.hkdf salt info (encodeUtf8 secretStr.toList)

/-- `_get_aes_key`. -/
def getAesKey (settings : KeySettings) : Key := deriveKey aesgcm settings.effectiveCryptoKey

/-! ### Secrets -/

/-- The start of an encrypted secret. -/
def secretTag : List Char := "ENC:v1:".toList

/-- `encrypt_secret`, with the nonce that is drawn. -/
def encryptSecret (settings : KeySettings) (nonce : Bytes) (plaintext : List Char) :
    List Char :=
  if plaintext = [] then []
  else if secretTag.isPrefixOf plaintext then plaintext
  else
    let ciphertext := aesgcm.encrypt (getAesKey aesgcm settings) nonce (encodeUtf8 plaintext)
    secretTag ++ b64encode nonce ++ ':' :: b64encode ciphertext

/-- `DecryptionError`. -/
inductive DecryptionError
  | segmentCount
  | malformedBase64
  | failed
  deriving DecidableEq

/-- The text of the error, with that of the error that is its cause. -/
def DecryptionError.text (cause : List Char) : DecryptionError → List Char
  | .segmentCount => "Malformed encrypted secret: invalid segment count.".toList
  | .malformedBase64 => "Malformed base64 in encrypted secret: ".toList ++ cause
  | .failed => "Failed to decrypt secret payload: ".toList ++ cause

/-- What a candidate key makes of a ciphertext. -/
def decryptWith (nonce rawCt : Bytes) (keyStr : String) : Option (List Char) :=
  (aesgcm.decrypt (deriveKey aesgcm keyStr) nonce rawCt).bind decodeUtf8

/-- `decrypt_secret`. -/
def decryptSecret (settings : KeySettings) (ciphertext : List Char) :
    Except DecryptionError (List Char) :=
  if ciphertext = [] then .ok []
  else if !secretTag.isPrefixOf ciphertext then .ok ciphertext
  else
    match splitChars ':' ciphertext with
    | [_, _, nonceB64, ctB64] =>
      match b64decode nonceB64, b64decode ctB64 with
      | some nonce, some rawCt =>
        match settings.candidateKeys.findSome? (decryptWith aesgcm nonce rawCt) with
        | some plaintext => .ok plaintext
        | none => .error .failed
      | _, _ => .error .malformedBase64
    | _ => .error .segmentCount

/-- `_decrypt_config_dict`. -/
def decryptConfigDict (codec : FloatCodec F) (settings : KeySettings)
    (rawConfig : List Char) : Json F :=
  match decryptSecret aesgcm settings rawConfig with
  | .ok decrypted => (loads codec decrypted).getD (.object [])
  | .error _ => .object []

/-- The configuration of a channel: a dictionary of JSON values. -/
structure ConfigDict (F : Type) where
  members : List (PyString × Json F)
  isValue : (Json.object members).IsValue

/-- The configuration as a JSON value. -/
def ConfigDict.json (cfg : ConfigDict F) : Json F := .object cfg.members

/-! ### Encrypted secrets -/

section Secrets

variable {aesgcm} {settings : KeySettings} {plaintext : List Char}

theorem colon_not_mem_b64encode (bytes : Bytes) : ':' ∉ b64encode bytes := by
  have hdigit : ∀ value < 64, digit64 value ≠ ':' := by decide
  intro hmem
  rcases exists_digit64_of_mem hmem with hpad | ⟨value, hvalue, hsame⟩
  · exact absurd hpad (by decide)
  · exact hdigit value hvalue hsame.symm

/-- An envelope has four segments. -/
theorem splitChars_envelope (nonce ciphertext : Bytes) :
    splitChars ':' (secretTag ++ b64encode nonce ++ ':' :: b64encode ciphertext) =
      ["ENC".toList, "v1".toList, b64encode nonce, b64encode ciphertext] := by
  have htext : secretTag ++ b64encode nonce ++ ':' :: b64encode ciphertext =
      "ENC".toList ++ ':' :: ("v1".toList ++ ':' :: (b64encode nonce ++
        ':' :: b64encode ciphertext)) := by
    rw [List.append_assoc]
    rfl
  have hplain : ∀ bytes : Bytes, ∀ char ∈ b64encode bytes, char ≠ ':' :=
    fun bytes char hchar hsame ↦ colon_not_mem_b64encode bytes (hsame ▸ hchar)
  rw [htext, splitChars_append (forall_mem_of_all (by decide)),
    splitChars_append (forall_mem_of_all (by decide)), splitChars_append (hplain nonce),
    splitChars_of_forall_ne (hplain ciphertext)]

/-- What starts like an encrypted secret is left as it is. -/
theorem encryptSecret_of_isPrefixOf (nonce : Bytes) (htag : secretTag.isPrefixOf plaintext = true) :
    encryptSecret aesgcm settings nonce plaintext = plaintext := by
  rw [encryptSecret, if_pos htag]
  split_ifs with hempty
  · exact hempty.symm
  · rfl

/-- A text that is encrypted anew is stored in an envelope. -/
theorem encryptSecret_eq (nonce : Bytes) (hempty : plaintext ≠ [])
    (htag : secretTag.isPrefixOf plaintext = false) :
    encryptSecret aesgcm settings nonce plaintext = secretTag ++ b64encode nonce ++ ':' ::
      b64encode (aesgcm.encrypt (getAesKey aesgcm settings) nonce (encodeUtf8 plaintext)) := by
  rw [encryptSecret, if_neg hempty, if_neg (by rw [htag]; exact Bool.false_ne_true)]

theorem isPrefixOf_envelope (nonce ciphertext : Bytes) :
    secretTag.isPrefixOf (secretTag ++ b64encode nonce ++ ':' :: b64encode ciphertext) = true := by
  rw [List.isPrefixOf_iff_prefix, List.append_assoc]
  exact List.prefix_append _ _

/-- Encrypting an encrypted secret changes nothing. -/
theorem encryptSecret_encryptSecret (later : KeySettings) (nonce again : Bytes)
    (plaintext : List Char) :
    encryptSecret aesgcm later again (encryptSecret aesgcm settings nonce plaintext) =
      encryptSecret aesgcm settings nonce plaintext := by
  by_cases hempty : plaintext = []
  · rw [hempty]
    rfl
  · cases htag : secretTag.isPrefixOf plaintext with
    | true => rw [encryptSecret_of_isPrefixOf nonce htag, encryptSecret_of_isPrefixOf again htag]
    | false =>
      rw [encryptSecret_eq nonce hempty htag]
      exact encryptSecret_of_isPrefixOf again (isPrefixOf_envelope nonce _)

/-- A candidate key decrypts a secret or fails. -/
theorem decryptWith_encrypt (key : Key) (nonce : Bytes) (plaintext : List Char) (keyStr : String)
    [Decidable (deriveKey aesgcm keyStr = key)] :
    decryptWith aesgcm nonce (aesgcm.encrypt key nonce (encodeUtf8 plaintext)) keyStr =
      if deriveKey aesgcm keyStr = key then some plaintext else none := by
  rw [decryptWith]
  split_ifs with hkey
  · rw [hkey, aesgcm.decrypt_encrypt, Option.bind_some, decodeUtf8_encodeUtf8]
  · rw [aesgcm.decrypt_of_ne key _ nonce _ hkey, Option.bind_none]

/-- A secret is decrypted when a candidate key gives the key under which it was encrypted. -/
theorem decryptSecret_encryptSecret [DecidableEq Key] (later : KeySettings) (nonce : Bytes)
    (hempty : plaintext ≠ []) (htag : secretTag.isPrefixOf plaintext = false) :
    decryptSecret aesgcm later (encryptSecret aesgcm settings nonce plaintext) =
      if ∃ keyStr ∈ later.candidateKeys, deriveKey aesgcm keyStr = getAesKey aesgcm settings then
        .ok plaintext
      else .error .failed := by
  have hne : secretTag ++ b64encode nonce ++ ':' ::
      b64encode (aesgcm.encrypt (getAesKey aesgcm settings) nonce (encodeUtf8 plaintext)) ≠ [] :=
    List.append_ne_nil_of_right_ne_nil _ (List.cons_ne_nil _ _)
  rw [encryptSecret_eq nonce hempty htag, decryptSecret, if_neg hne, isPrefixOf_envelope,
    if_neg (by decide), splitChars_envelope]
  dsimp only
  rw [b64decode_b64encode, b64decode_b64encode]
  dsimp only
  have hfind : later.candidateKeys.findSome? (decryptWith aesgcm nonce
      (aesgcm.encrypt (getAesKey aesgcm settings) nonce (encodeUtf8 plaintext))) =
        if ∃ keyStr ∈ later.candidateKeys, deriveKey aesgcm keyStr = getAesKey aesgcm settings then
          some plaintext else none := by
    induction later.candidateKeys with
    | nil => simp
    | cons keyStr rest ih =>
      rw [List.findSome?_cons, decryptWith_encrypt, ih]
      by_cases hkey : deriveKey aesgcm keyStr = getAesKey aesgcm settings <;> simp [hkey]
  rw [hfind]
  split_ifs <;> rfl

/-- The candidate keys are the effective key and the fallback keys that are not empty. -/
theorem mem_candidateKeys_iff (settings : KeySettings) (key : String) :
    key ∈ settings.candidateKeys ↔
      key = settings.effectiveCryptoKey ∨ (key ≠ "" ∧ key ∈ settings.fallbackCryptoKeys) := by
  have hfold : ∀ fallback candidates : List String,
      key ∈ fallback.foldl (fun keys fb ↦ if fb ≠ "" ∧ fb ∉ keys then keys ++ [fb] else keys)
        candidates ↔ key ∈ candidates ∨ (key ≠ "" ∧ key ∈ fallback) := by
    intro fallback
    induction fallback with
    | nil => intro candidates; simp
    | cons fb rest ih =>
      intro candidates
      rw [List.foldl_cons, ih]
      by_cases hnew : fb ≠ "" ∧ fb ∉ candidates
      · rw [if_pos hnew, List.mem_append, List.mem_singleton, List.mem_cons]
        constructor
        · rintro ((hmem | rfl) | ⟨hkey, hmem⟩)
          · exact Or.inl hmem
          · exact Or.inr ⟨hnew.1, Or.inl rfl⟩
          · exact Or.inr ⟨hkey, Or.inr hmem⟩
        · rintro (hmem | ⟨hkey, hmem | hmem⟩)
          · exact Or.inl (Or.inl hmem)
          · exact Or.inl (Or.inr hmem)
          · exact Or.inr ⟨hkey, hmem⟩
      · rw [if_neg hnew, List.mem_cons]
        constructor
        · rintro (hmem | ⟨hkey, hmem⟩)
          · exact Or.inl hmem
          · exact Or.inr ⟨hkey, Or.inr hmem⟩
        · rintro (hmem | ⟨hkey, rfl | hmem⟩)
          · exact Or.inl hmem
          · exact Or.inl (not_not.mp fun hout ↦ hnew ⟨hkey, hout⟩)
          · exact Or.inr ⟨hkey, hmem⟩
  rw [KeySettings.candidateKeys, hfold, List.mem_singleton]

end Secrets

/-! ### Configurations -/

section Configurations

variable {aesgcm} {codec : FloatCodec F} {cfg : ConfigDict F} {text : List Char}

/-- The text of a configuration is no encrypted secret, and not empty. -/
theorem isPrefixOf_dumps (hdumps : JsonSyntax.dumps codec cfg.json = some text) :
    text ≠ [] ∧ secretTag.isPrefixOf text = false := by
  obtain ⟨fields, -, rfl⟩ := Option.map_eq_some_iff.mp hdumps
  exact ⟨List.cons_ne_nil _ _, rfl⟩

/-- A configuration is read back when a candidate key gives its key, and counts as empty
otherwise. -/
theorem decryptConfigDict_encryptSecret_eq [DecidableEq Key]
    (hdumps : JsonSyntax.dumps codec cfg.json = some text)
    (stored later : KeySettings) (nonce : Bytes) :
    decryptConfigDict aesgcm codec later (encryptSecret aesgcm stored nonce text) =
      if ∃ keyStr ∈ later.candidateKeys, deriveKey aesgcm keyStr = getAesKey aesgcm stored then
        cfg.json
      else .object [] := by
  obtain ⟨hempty, htag⟩ := isPrefixOf_dumps hdumps
  rw [decryptConfigDict, decryptSecret_encryptSecret later nonce hempty htag]
  split_ifs
  · dsimp only
    rw [loads_dumps cfg.isValue hdumps, Option.getD_some]
    rfl
  · rfl

/-- A configuration that is stored under some key is read back under every settings in which the key
is the effective one or a fallback key that is not empty; and encrypting an encrypted secret changes
nothing. -/
theorem decryptConfigDict_encryptSecret (aesgcm : AesGcm Key) (codec : FloatCodec F)
    (stored later : KeySettings) (nonce : Bytes) (cfg : ConfigDict F) (text : List Char)
    (hdumps : JsonSyntax.dumps codec cfg.json = some text)
    (hkey : stored.effectiveCryptoKey = later.effectiveCryptoKey ∨
      (stored.effectiveCryptoKey ≠ "" ∧
        stored.effectiveCryptoKey ∈ later.fallbackCryptoKeys)) :
    decryptConfigDict aesgcm codec later (encryptSecret aesgcm stored nonce text) = cfg.json ∧
      ∀ (settings : KeySettings) (again : Bytes) (plaintext : List Char),
        encryptSecret aesgcm settings again (encryptSecret aesgcm stored nonce plaintext) =
          encryptSecret aesgcm stored nonce plaintext := by
  classical
  refine ⟨?_, fun settings again ↦ encryptSecret_encryptSecret settings nonce again⟩
  rw [decryptConfigDict_encryptSecret_eq hdumps, if_pos]
  exact ⟨_, (mem_candidateKeys_iff later _).mpr hkey, rfl⟩

end Configurations

/-! ### An empty key -/

/-- The key in front of a text, in such a form that no other key stands there. -/
def frame (key : Bytes) : Bytes := key.flatMap (fun byte ↦ [1, byte]) ++ [0]

theorem frame_cons (byte : UInt8) (key : Bytes) :
    frame (byte :: key) = 1 :: byte :: frame key := rfl

theorem eq_of_frame_isPrefix {key other rest : Bytes}
    (hbelow : frame other <+: frame key ++ rest) : other = key := by
  induction other generalizing key with
  | nil =>
    cases key with
    | nil => rfl
    | cons byte key =>
      rw [frame_cons] at hbelow
      exact absurd (List.cons_prefix_cons.mp hbelow).1 (by decide)
  | cons otherByte other ih =>
    cases key with
    | nil =>
      rw [frame_cons] at hbelow
      exact absurd (List.cons_prefix_cons.mp hbelow).1 (by decide)
    | cons byte key =>
      rw [frame_cons, frame_cons, List.cons_append, List.cons_append, List.cons_prefix_cons,
        List.cons_prefix_cons] at hbelow
      rw [hbelow.2.1, ih hbelow.2.2]

/-- A cipher that marks its ciphertexts with their keys. -/
def framedCipher : AesGcm Bytes where
  hkdf := fun _ _ secret ↦ secret
  encrypt := fun key _ plaintext ↦ frame key ++ plaintext
  decrypt := fun key _ rawCt ↦
    if (frame key).isPrefixOf rawCt then some (rawCt.drop (frame key).length) else none
  decrypt_encrypt := fun key _ plaintext ↦ by
    rw [if_pos (List.isPrefixOf_iff_prefix.mpr (List.prefix_append _ _)), List.drop_left]
  decrypt_of_ne := fun key other _ plaintext hother ↦
    if_neg fun hbelow ↦ hother (eq_of_frame_isPrefix (List.isPrefixOf_iff_prefix.mp hbelow))

theorem isDecoded_ofText_password : IsDecoded (ofText "password") := by
  rw [IsDecoded]
  decide

/-- A configuration with the password of a mail server. -/
def mailConfig : ConfigDict FloatText where
  members := [(ofText "password", .string (ofText "password")), (ofText "smtp_port", .int 25)]
  isValue := by
    refine .object _ (by decide) (List.forall_mem_cons.mpr ⟨isDecoded_ofText_password, ?_⟩)
      (List.forall_mem_cons.mpr ⟨.string _ isDecoded_ofText_password, ?_⟩)
    · rw [List.forall_mem_singleton, IsDecoded]
      decide
    · rw [List.forall_mem_singleton]
      exact .int 25

/-- Its text. -/
def mailText : List Char := "\x7b\"password\": \"password\", \"smtp_port\": 25\x7d".toList

theorem dumps_mailConfig : JsonSyntax.dumps textCodec mailConfig.json = some mailText := by
  rfl

/-- Settings without a key, and settings with a secret key that keep the empty key as a fallback. -/
def unsetSettings : KeySettings := ⟨"", none, []⟩

def emptyFallbackSettings : KeySettings := ⟨"k", none, [""]⟩

/-- The key is a fallback key, and the configuration is lost. -/
theorem decryptConfigDict_emptyFallback :
    JsonSyntax.dumps textCodec mailConfig.json = some mailText ∧
      unsetSettings.effectiveCryptoKey ∈ emptyFallbackSettings.fallbackCryptoKeys ∧
      decryptConfigDict framedCipher textCodec emptyFallbackSettings
          (encryptSecret framedCipher unsetSettings [7] mailText) = .object [] ∧
      mailConfig.json ≠ .object [] := by
  refine ⟨dumps_mailConfig, by decide, ?_, nofun⟩
  rw [decryptConfigDict_encryptSecret_eq dumps_mailConfig, if_neg]
  decide

theorem decryptConfigDict_fallbackKeys :
    decryptConfigDict framedCipher textCodec ⟨"secret", some "new", ["", "old", "older", "old"]⟩
        (encryptSecret framedCipher ⟨"older", none, []⟩ [7] mailText) = mailConfig.json ∧
      ∀ (settings : KeySettings) (again : Bytes) (plaintext : List Char),
        encryptSecret framedCipher settings again
            (encryptSecret framedCipher ⟨"older", none, []⟩ [7] plaintext) =
          encryptSecret framedCipher ⟨"older", none, []⟩ [7] plaintext :=
  decryptConfigDict_encryptSecret framedCipher textCodec ⟨"older", none, []⟩
    ⟨"secret", some "new", ["", "old", "older", "old"]⟩ [7] mailConfig mailText dumps_mailConfig
    (Or.inr ⟨by decide, by decide⟩)

end Lnmp.Alerts.KeyRotation
