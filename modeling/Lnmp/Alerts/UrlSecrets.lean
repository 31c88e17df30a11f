import Lnmp.Alerts.SecretMask

/-!
# URLs with secrets

The URL of a webhook has secrets: a password in front of the host, tokens in the path, and the
values of some parameters. The rest of it is its shape.

`UrlShape.SameShown` says what the mask shows of the secrets: of a password the text behind its
first `@`, of a token its parameters, or the whole token where the last segment of the path is
another one.
-/

set_option autoImplicit false
set_option relaxedAutoImplicit false

namespace Lnmp.Alerts

open Lnmp.Foundation Lnmp.Foundation.IpAddress Lnmp.Foundation.PercentText Lnmp.Foundation.Url

/-! ### URLs with secrets -/

/-- The secrets of a URL. Only a path of Teams has the first of the two tokens. -/
structure Secrets where
  password : List Char
  firstToken : List Char
  token : List Char
  values : List (List Char)

/-- What stands in front of the tokens of a path. -/
inductive Provider
  | discord (id : List Char)
  | slack (team bot : List Char)
  | teams (hook : List Char)

/-- A path, without its tokens. -/
inductive PathShape
  | plain (path : List Char)
  | webhook (front : List Char) (provider : Provider) (further : List Char)

/-- A field of a query, without its value if it is secret. -/
inductive QueryField
  | plain (field : List Char)
  | secret (name : List Char)

/-- A URL, without its secrets. -/
structure UrlShape where
  scheme : List Char
  user : Option (List Char)
  host : List Char
  path : PathShape
  query : Option (List QueryField)
  fragment : Option (List Char)

/-- The path in front of the last token. -/
def Provider.lead (front : List Char) (secrets : Secrets) : Provider → List Char
  | .discord id => front ++ discordMark ++ id
  | .slack team bot => front ++ slackMark ++ team ++ "/B".toList ++ bot
  | .teams hook => front ++ '/' :: hook ++ '/' :: secrets.firstToken

/-- The path with its tokens. -/
def PathShape.text (secrets : Secrets) : PathShape → List Char
  | .plain path => path
  | .webhook front provider further =>
    provider.lead front secrets ++ '/' :: (secrets.token ++ further)

/-- The fields with their values, one for each secret field; a value that is missing is empty. -/
def fieldTexts : List QueryField → List (List Char) → List (List Char)
  | [], _ => []
  | .plain field :: fields, values => field :: fieldTexts fields values
  | .secret name :: fields, values =>
    (name ++ '=' :: values.headD []) :: fieldTexts fields values.tail

/-- The authority with its password. -/
def UrlShape.netloc (shape : UrlShape) (secrets : Secrets) : List Char :=
  match shape.user with
  | some user => user ++ ':' :: (secrets.password ++ '@' :: shape.host)
  | none => shape.host

/-- The query with its values. -/
def UrlShape.queryText (shape : UrlShape) (secrets : Secrets) : Option (List Char) :=
  shape.query.map fun fields ↦ joinChars '&' (fieldTexts fields secrets.values)

/-- The URL behind its scheme. -/
def UrlShape.text (shape : UrlShape) (secrets : Secrets) : List Char :=
  shape.netloc secrets ++ shape.path.text secrets ++ withMark '?' (shape.queryText secrets) ++
    withMark '#' shape.fragment

/-- A URL of this shape with these secrets: tabs and line breaks may stand in it anywhere. -/
def UrlShape.Writes (shape : UrlShape) (secrets : Secrets) (url : String) : Prop :=
  ∃ text, url.toList = shape.scheme ++ "://".toList ++ text ∧ keptText text = shape.text secrets

/-! ### Where secrets can stand -/

/-- The part of the last token that belongs to the path. -/
def pathToken (further token : List Char) : List Char :=
  if further = [] then (cut ';' token).1 else token

/-- The parameters behind the path. -/
def pathParams (further token : List Char) : List Char :=
  if further = [] then (cut ';' token).2 else (splitParams further).2

/-- What a provider requires of a path. The tokens of Teams stand behind the first segment
`IncomingWebhook`. -/
def Provider.Carries (front : List Char) (secrets : Secrets) : Provider → Prop
  | .teams hook => isIncomingWebhook hook = true ∧
    (∀ segment ∈ splitChars '/' front, isIncomingWebhook segment = false) ∧
    secrets.firstToken ≠ [] ∧ '/' ∉ secrets.firstToken
  | _ => True

/-- The tokens are segments of the path that are not empty. -/
def PathShape.Carries (secrets : Secrets) : PathShape → Prop
  | .plain _ => True
  | .webhook front provider further =>
    (further ≠ [] → further.head? = some '/') ∧ '/' ∉ secrets.token ∧
      pathToken further secrets.token ≠ [] ∧ provider.Carries front secrets

/-- A secret field has a sensitive name. -/
def QueryField.IsField : QueryField → Prop
  | .plain field => '&' ∉ field ∧ '#' ∉ field
  | .secret name => '&' ∉ name ∧ '#' ∉ name ∧ '=' ∉ name ∧
    isSensitiveKey (unquotePlus name) = true

/-- The scheme is `http` or `https`, in letters of any case, and the parts of the URL end where they
are said to end. -/
structure UrlShape.Carries (shape : UrlShape) (secrets : Secrets) : Prop where
  scheme : shape.scheme.map Char.toLower = "http".toList ∨
    shape.scheme.map Char.toLower = "https".toList
  user : ∀ user ∈ shape.user, ':' ∉ user ∧ '@' ∉ user ∧ '@' ∉ shape.host
  netloc : ∀ char ∈ shape.netloc secrets, isDelimiter char = false
  absolute : shape.path.text secrets ≠ [] → (shape.path.text secrets).head? = some '/'
  path : '?' ∉ shape.path.text secrets ∧ '#' ∉ shape.path.text secrets
  tokens : shape.path.Carries secrets
  fields : ∀ fields ∈ shape.query, ∀ field ∈ fields, field.IsField
  values : ∀ value ∈ secrets.values, '&' ∉ value ∧ '#' ∉ value

/-! ### What is shown -/

/-- What is shown of a password: the text behind its first `@`. -/
def shownPassword (password : List Char) : List Char :=
  if '@' ∈ password then (cut '@' password).2 ++ ['@'] else []

/-- What is shown of the last token where the last segment of the path is masked: its parameters,
or the whole token if another segment follows that is not empty. -/
def shownToken (further token : List Char) : List Char :=
  if further = [] then (cut ';' token).2
  else if (splitParams further).1.all (· = '/') then []
  else token

/-- The last segment of the path is masked. -/
def masksLastSegment (path : List Char) : Bool := discordMark <:+: path ∨ slackMark <:+: path

/-- What is shown of the tokens. A path of Teams may be taken for one of another provider, by what
it has in front of its tokens or behind them, or by the tokens. -/
def PathShape.shown (secrets : Secrets) (shape : PathShape) : Option (List Char) × List Char :=
  match shape with
  | .plain _ => (none, [])
  | .webhook _ (.teams _) further =>
    if masksLastSegment (splitParams (shape.text secrets)).1 then
      (some secrets.firstToken, shownToken further secrets.token)
    else (none, if further = [] then (cut ';' secrets.token).2 else [])
  | .webhook _ _ further => (none, shownToken further secrets.token)

/-- The masks show the same: the scheme is not in lower case, and the URLs are masked as a whole; or
both authorities are rejected; or both are accepted, and the same is shown of the passwords and of
the tokens. -/
def UrlShape.SameShown (shape : UrlShape) (nfkc : List Char → List Char)
    (first second : Secrets) : Prop :=
  shape.scheme = "http".toList ∨ shape.scheme = "https".toList →
    checkNetloc nfkc (shape.netloc first) = checkNetloc nfkc (shape.netloc second) ∧
      (checkNetloc nfkc (shape.netloc first) = true →
        (shape.user ≠ none → shownPassword first.password = shownPassword second.password) ∧
          shape.path.shown first = shape.path.shown second)

end Lnmp.Alerts
