import Lnmp.Alerts.ChannelConfig
import Lnmp.Foundation.Url

/-!
# Masks

`mask_secret` (`services/crypto_service.py`) and `_mask_channel_config` (`routers/alerts.py`). A
password is masked as a whole. Of a webhook URL the values of some parameters are masked, the tokens
of the paths of three providers, and the password in front of the host; the URL is taken apart for
this and put together again.

`decrypt_secret` and the compatibility normalization of Unicode are parameters.
-/

set_option autoImplicit false
set_option relaxedAutoImplicit false

namespace Lnmp.Alerts

open Lnmp.Foundation Lnmp.Foundation.IpAddress Lnmp.Foundation.PercentText Lnmp.Foundation.Url

/-! ### Queries -/

/-- A mask of so many bullets. -/
def bullets (count : ℕ) : List Char := List.replicate count '•'

/-- `sensitive_keys`. -/
def sensitiveKeys : List String :=
  ["sig", "token", "key", "secret", "webhook", "auth", "api_key", "password", "access_token",
    "apikey", "bearer", "code"]

/-- `k.lower() in sensitive_keys`. -/
def isSensitiveKey (key : List Char) : Bool :=
  sensitiveKeys.any fun mark ↦ mark.toList = lowerText (String.ofList key)

/-- One parameter of `masked_params`. -/
def maskParam (param : List Char × List Char) : List Char × List Char :=
  if isSensitiveKey param.1 then (param.1, bullets 8) else param

/-- `new_query`. -/
def maskQuery (query : List Char) : List Char :=
  let queryParams := parseQsl query
  if queryParams = [] then query else unquote (urlencode (queryParams.map maskParam))

/-! ### Paths -/

/-- `path.strip("/")`. -/
def stripSlashes (path : List Char) : List Char :=
  ((path.dropWhile (· = '/')).reverse.dropWhile (· = '/')).reverse

/-- Mask the last segment, where there are three of them. -/
def maskLastSegment (path : List Char) : List Char :=
  let segments := splitChars '/' (stripSlashes path)
  if 3 ≤ segments.length then '/' :: joinChars '/' (segments.dropLast ++ [bullets 8]) else path

/-- Letters that a regular expression matches whatever their case. -/
def ignoreCase (char : Char) : Char :=
  if char.toNat = 0x130 ∨ char.toNat = 0x131 then 'i'
  else if char.toNat = 0x212A then 'k'
  else char.toLower

/-- The segment in front of the tokens of a Teams path. -/
def isIncomingWebhook (segment : List Char) : Bool :=
  segment.map ignoreCase = "incomingwebhook".toList

/-- The search for `/IncomingWebhook/` and two tokens, among the segments behind the first slash. -/
def hasTeamsTokens : List (List Char) → Bool
  | hook :: first :: second :: rest =>
    (isIncomingWebhook hook && first ≠ [] && second ≠ []) ||
      hasTeamsTokens (first :: second :: rest)
  | _ => false

/-- The substitution of the tokens, which goes on behind them. -/
def maskTeamsTokens : List (List Char) → List (List Char)
  | hook :: first :: second :: rest =>
    if isIncomingWebhook hook ∧ first ≠ [] ∧ second ≠ [] then
      hook :: bullets 12 :: bullets 12 :: maskTeamsTokens rest
    else hook :: maskTeamsTokens (first :: second :: rest)
  | segments => segments

/-- The mark of a Discord path. -/
def discordMark : List Char := "/api/webhooks/".toList

/-- The mark of a Slack path. -/
def slackMark : List Char := "/services/T".toList

/-- The path of the masked URL. -/
def maskPath (path : List Char) : List Char :=
  if discordMark <:+: path then maskLastSegment path
  else if slackMark <:+: path then maskLastSegment path
  else if hasTeamsTokens (splitChars '/' path).tail then
    joinChars '/' ((splitChars '/' path).take 1 ++ maskTeamsTokens (splitChars '/' path).tail)
  else path

theorem maskPath_of_mark {path : List Char} (hmark : discordMark <:+: path ∨ slackMark <:+: path) :
    maskPath path = maskLastSegment path := by
  rw [maskPath]
  split_ifs <;> tauto

/-! ### URLs -/

/-- The authority of the masked URL. -/
def maskNetloc (netloc : List Char) : List Char :=
  if '@' ∈ netloc then
    let userInfo := (cut '@' netloc).1
    let host := (cut '@' netloc).2
    if ':' ∈ userInfo then (cut ':' userInfo).1 ++ ':' :: bullets 8 ++ '@' :: host
    else bullets 8 ++ '@' :: host
  else netloc

/-- The parts of the masked URL. -/
def maskParts (parsed : ParseResult) : ParseResult where
  scheme := parsed.scheme
  netloc := maskNetloc parsed.netloc
  path := maskPath parsed.path
  params := parsed.params
  query := maskQuery parsed.query
  fragment := parsed.fragment

/-- The scheme of a URL that starts with `http://` or `https://`, and the text behind it. -/
def httpUrl? (secret : List Char) : Option (List Char × List Char) :=
  if "http://".toList <+: secret then some ("http".toList, secret.drop 7)
  else if "https://".toList <+: secret then some ("https".toList, secret.drop 8)
  else none

/-- The masked URL. -/
def maskUrl (nfkc : List Char → List Char) (scheme text : List Char) : List Char :=
  match urlparse nfkc scheme text with
  | some parsed => urlunparse (maskParts parsed)
  | none => "https://".toList ++ bullets 8

/-- What `mask_secret` makes of a plain text. -/
def maskPlain (nfkc : List Char → List Char) (secret : List Char) : List Char :=
  match httpUrl? secret with
  | some (scheme, text) => maskUrl nfkc scheme text
  | none => bullets 12

/-- `mask_secret`. The decryption of a text that starts with `ENC:v1:` is `none` where it raises an
error. -/
def maskSecret (decrypt : String → Option String) (nfkc : List Char → List Char)
    (secret : String) : String :=
  if secret = "" then ""
  else if "ENC:v1:".toList <+: secret.toList then
    match decrypt secret with
    | some plain => String.ofList (maskPlain nfkc plain.toList)
    | none => String.ofList (bullets 8)
  else String.ofList (maskPlain nfkc secret.toList)

/-! ### Configurations -/

/-- `mask_secret(str(value))`. The `str` of what is not a text is not empty, and starts neither like
a URL nor like an encrypted text. -/
def maskValue (decrypt : String → Option String) (nfkc : List Char → List Char) :
    ConfigValue → String
  | .value (.string text) => maskSecret decrypt nfkc text
  | _ => String.ofList (bullets 12)

/-- Mask a field, where it is set. -/
def maskField (decrypt : String → Option String) (nfkc : List Char → List Char) (key : String)
    (config : ChannelConfig) : ChannelConfig :=
  match (config.get? key).filter ConfigValue.isTruthy with
  | some value => config.set key (.value (.string (maskValue decrypt nfkc value)))
  | none => config

/-- Mask a header. -/
def maskHeader (decrypt : String → Option String) (nfkc : List Char → List Char) (name : String)
    (value : JsonValue) : JsonValue :=
  if isSensitiveHeader name then .string (maskValue decrypt nfkc (.value value)) else value

/-- `_mask_channel_config`, which does not look at the type of the channel. -/
def maskChannelConfig (decrypt : String → Option String) (nfkc : List Char → List Char)
    (_channelType : ChannelType) (config : ChannelConfig) : ChannelConfig :=
  let masked := maskField decrypt nfkc "password" (maskField decrypt nfkc "webhook_url" config)
  match masked.get? "headers" with
  | some (.object members) =>
    masked.set "headers" (.object (members.mapEntries (maskHeader decrypt nfkc)))
  | _ => masked

end Lnmp.Alerts
