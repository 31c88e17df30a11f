import Lnmp.Alerts.SecretMask

/-!
# Channels that are saved as they are shown

The form of a channel is filled with its configuration, in which the secrets are masked, and sends
it back. A mask that shows a bullet keeps the secret that is stored. A URL of which nothing is
hidden has a mask without a bullet, and the mask is stored in its place: the URL as it is put
together again, with its query encoded again and without the marks of empty parts.

`mergeChannelConfig_maskChannelConfig_iff` says which configurations come back as they were.
-/

set_option autoImplicit false
set_option relaxedAutoImplicit false

namespace Lnmp.Alerts

open Lnmp.Foundation Lnmp.Foundation.IpAddress Lnmp.Foundation.PercentText Lnmp.Foundation.Url

/-! ### Secrets that come back -/

/-- A segment of the path is masked. -/
def hidesSegment (path : List Char) : Bool :=
  if discordMark <:+: path ∨ slackMark <:+: path then
    3 ≤ (splitChars '/' (stripSlashes path)).length
  else hasTeamsTokens (splitChars '/' path).tail

/-- The mask of a URL shows a bullet: something of the URL is hidden, or has a bullet itself. -/
inductive ShowsBullet (parsed : ParseResult) : Prop
  | userInfo (hmark : '@' ∈ parsed.netloc)
  | segment (hsegment : hidesSegment parsed.path = true)
  | param (param : List Char × List Char) (hparam : param ∈ parseQsl parsed.query)
    (hshows : isSensitiveKey param.1 = true ∨ '•' ∈ param.1 ∨ '•' ∈ param.2)
  | part (part : List Char)
    (hpart : part ∈ [parsed.netloc, parsed.path, parsed.params, parsed.fragment])
    (hbullet : '•' ∈ part)

/-- A text that is stored again, or kept, where its mask is sent: it is no URL, or a URL that does
not parse; its mask shows a bullet; or it is a URL that the mask leaves as it is. -/
def Survives (decrypt : String → Option String) (nfkc : List Char → List Char)
    (secret : String) : Prop :=
  if "ENC:v1:".toList <+: secret.toList then
    ∀ plain ∈ decrypt secret, ∀ url ∈ httpUrl? plain.toList, ∀ parsed ∈ urlparse nfkc url.1 url.2,
      ShowsBullet parsed
  else ∀ url ∈ httpUrl? secret.toList, ∀ parsed ∈ urlparse nfkc url.1 url.2,
    ShowsBullet parsed ∨ IsShownUrl url.2 parsed

/-- A configuration comes back: its masked texts survive, and no header that is not masked is
null. -/
structure RoundTrips (decrypt : String → Option String) (nfkc : List Char → List Char)
    (config : ChannelConfig) : Prop where
  field : ∀ key text, key = "webhook_url" ∨ key = "password" →
    config.get? key = some (.value (.string text)) → Survives decrypt nfkc text
  secretHeader : ∀ name text, isSensitiveHeader name = true →
    (membersOf (config.get? "headers")).get? name = some (.string text) →
      Survives decrypt nfkc text
  header : ∀ name, isSensitiveHeader name = false →
    (membersOf (config.get? "headers")).get? name ≠ some .null

/-! ### Masks with bullets -/

/-- The characters of a URL that is put together are those of its parts. -/
theorem mem_urlunparse {char : Char} (hchar : char ∉ [':', '/', ';', '?', '#'])
    (result : ParseResult) :
    char ∈ urlunparse result ↔ char ∈ result.scheme ∨
      (∃ part ∈ [result.netloc, result.path, result.params, result.fragment], char ∈ part) ∨
      char ∈ result.query := by
  simp only [List.mem_cons, List.not_mem_nil, or_false, not_or] at hchar
  obtain ⟨hcolon, hslash, hsemicolon, hquestion, hhash⟩ := hchar
  have habsolute : ∀ url : List Char,
      char ∈ (if url ≠ [] ∧ url.head? ≠ some '/' then '/' :: url else url) ↔ char ∈ url := by
    intro url
    split_ifs
    · rw [List.mem_cons, or_iff_right hslash]
    · exact Iff.rfl
  have hmark : char ∉ "://".toList := by simp [hcolon, hslash]
  rw [urlunparse]
  simp only [List.mem_append, habsolute, mem_markedPart hsemicolon, mem_markedPart hquestion,
    mem_markedPart hhash, hmark, or_false, List.exists_mem_cons_iff, List.not_mem_nil, false_and,
    exists_false]
  tauto

theorem bullet_mem_bullets (count : ℕ) : '•' ∈ bullets (count + 1) :=
  List.mem_replicate.mpr ⟨Nat.succ_ne_zero count, rfl⟩

theorem bullet_mem_maskNetloc {netloc : List Char} (hmark : '@' ∈ netloc) :
    '•' ∈ maskNetloc netloc := by
  rw [maskNetloc, if_pos hmark]
  dsimp only
  split_ifs
  · simp [bullet_mem_bullets 7]
  · simp [bullet_mem_bullets 7]

theorem bullet_mem_maskTeamsTokens {segments : List (List Char)}
    (htokens : hasTeamsTokens segments = true) :
    ∃ segment ∈ maskTeamsTokens segments, '•' ∈ segment := by
  induction segments using hasTeamsTokens.induct with
  | case1 hook first second rest ih =>
    rw [hasTeamsTokens, Bool.or_eq_true] at htokens
    rw [maskTeamsTokens]
    split_ifs with hhook
    · exact ⟨bullets 12, by simp, bullet_mem_bullets 11⟩
    · have hrest := htokens.resolve_left fun h ↦ hhook (by simpa [and_assoc] using h)
      obtain ⟨segment, hmem, hbullet⟩ := ih hrest
      exact ⟨segment, List.mem_cons_of_mem _ hmem, hbullet⟩
  | case2 segments hother =>
    rw [hasTeamsTokens] at htokens
    · cases htokens
    · exact hother

theorem bullet_mem_maskLastSegment {path : List Char}
    (hlength : 3 ≤ (splitChars '/' (stripSlashes path)).length) : '•' ∈ maskLastSegment path := by
  rw [maskLastSegment, if_pos hlength]
  refine List.mem_cons_of_mem _ (mem_joinChars_of_mem ?_ (bullet_mem_bullets 7))
  exact List.mem_append_right _ (List.mem_singleton_self _)

/-- The mask of a path shows a bullet, or is the path. -/
theorem maskPath_cases (path : List Char) :
    if hidesSegment path then '•' ∈ maskPath path else maskPath path = path := by
  by_cases hmark : discordMark <:+: path ∨ slackMark <:+: path
  · rw [hidesSegment, if_pos hmark, maskPath_of_mark hmark]
    split_ifs with hlength
    · exact bullet_mem_maskLastSegment (of_decide_eq_true hlength)
    · exact if_neg fun h ↦ hlength (decide_eq_true h)
  · obtain ⟨hdiscord, hslack⟩ := not_or.mp hmark
    rw [hidesSegment, if_neg hmark, maskPath, if_neg hdiscord, if_neg hslack]
    split_ifs with htokens
    · obtain ⟨segment, hmem, hbullet⟩ := bullet_mem_maskTeamsTokens htokens
      exact mem_joinChars_of_mem (List.mem_append_right _ hmem) hbullet
    · rfl

theorem mem_spaceToPlus {char : Char} (hspace : char ≠ ' ') (hplus : char ≠ '+')
    (text : List Char) : char ∈ spaceToPlus text ↔ char ∈ text := by
  rw [spaceToPlus, List.mem_map]
  constructor
  · rintro ⟨other, hother, hsame⟩
    split_ifs at hsame
    · exact absurd hsame.symm hplus
    · exact hsame ▸ hother
  · exact fun hchar ↦ ⟨char, hchar, if_neg hspace⟩

/-- The mask of a query is made of its parameters. -/
theorem maskQuery_eq (query : List Char) :
    maskQuery query = if parseQsl query = [] then query
      else joinChars '&' ((parseQsl query).map fun param ↦ shownParam (maskParam param)) := by
  rw [maskQuery, unquote_urlencode, List.map_map]
  rfl

theorem bullet_mem_shownParam (param : List Char × List Char) :
    '•' ∈ shownParam param ↔ '•' ∈ param.1 ∨ '•' ∈ param.2 := by
  have hmem : ∀ text : List Char, '•' ∈ spaceToPlus text ↔ '•' ∈ text :=
    mem_spaceToPlus (by decide) (by decide)
  have hequals : '•' ≠ '=' := by decide
  rw [shownParam, List.mem_append, List.mem_cons, or_iff_right hequals, hmem, hmem]

theorem bullet_mem_shownParam_maskParam (param : List Char × List Char) :
    '•' ∈ shownParam (maskParam param) ↔
      isSensitiveKey param.1 = true ∨ '•' ∈ param.1 ∨ '•' ∈ param.2 := by
  rw [bullet_mem_shownParam, maskParam]
  split_ifs with hkey
  · simp [hkey, bullet_mem_bullets 7]
  · simp [hkey]

theorem bullet_mem_maskQuery (query : List Char) :
    '•' ∈ maskQuery query ↔ ∃ param ∈ parseQsl query,
      isSensitiveKey param.1 = true ∨ '•' ∈ param.1 ∨ '•' ∈ param.2 := by
  rw [maskQuery_eq]
  split_ifs with hnone
  · rw [hnone]
    simp only [List.not_mem_nil, false_and, exists_false, iff_false]
    intro hbullet
    rw [← joinChars_splitChars '&' query] at hbullet
    obtain ⟨field, hfield, hmem⟩ := (mem_joinChars hbullet).resolve_left (by decide)
    have hfields : queryFields query = [] := List.map_eq_nil_iff.mp hnone
    have hempty := List.filter_eq_nil_iff.mp hfields field hfield
    rw [decide_eq_true_eq, not_not] at hempty
    exact List.not_mem_nil (hempty ▸ hmem)
  · constructor
    · intro hbullet
      obtain ⟨part, hpart, hmem⟩ := (mem_joinChars hbullet).resolve_left (by decide)
      obtain ⟨param, hparam, rfl⟩ := List.mem_map.mp hpart
      exact ⟨param, hparam, (bullet_mem_shownParam_maskParam param).mp hmem⟩
    · rintro ⟨param, hparam, hshows⟩
      exact mem_joinChars_of_mem (List.mem_map_of_mem hparam)
        ((bullet_mem_shownParam_maskParam param).mpr hshows)

/-- Where no parameter is masked, the query is encoded again. -/
theorem maskQuery_of_not_sensitive {query : List Char}
    (hparams : ∀ param ∈ parseQsl query, isSensitiveKey param.1 = false) :
    maskQuery query = requoted query := by
  have hsame : (parseQsl query).map maskParam = parseQsl query := by
    refine (List.map_congr_left fun param hparam ↦ ?_).trans (List.map_id _)
    rw [maskParam, hparams param hparam]
    rfl
  rw [maskQuery, requoted, hsame]

section Masks

variable {parsed : ParseResult}

theorem bullet_mem_masked_iff (hscheme : '•' ∉ parsed.scheme) :
    '•' ∈ urlunparse (maskParts parsed) ↔ ShowsBullet parsed := by
  have hpath := maskPath_cases parsed.path
  rw [mem_urlunparse (by decide), maskParts, or_iff_right hscheme, bullet_mem_maskQuery]
  constructor
  · rintro (⟨part, hpart, hbullet⟩ | ⟨param, hparam, hshows⟩)
    · by_cases hmark : '@' ∈ parsed.netloc
      · exact .userInfo hmark
      · by_cases hsegment : hidesSegment parsed.path = true
        · exact .segment hsegment
        · rw [if_neg hsegment] at hpath
          rw [maskNetloc, if_neg hmark, hpath] at hpart
          exact .part part hpart hbullet
    · exact .param param hparam hshows
  · rintro (hmark | hsegment | ⟨param, hparam, hshows⟩ | ⟨part, hpart, hbullet⟩)
    · exact Or.inl ⟨_, List.mem_cons_self .., bullet_mem_maskNetloc hmark⟩
    · rw [if_pos hsegment] at hpath
      exact Or.inl ⟨_, List.mem_cons_of_mem _ (List.mem_cons_self ..), hpath⟩
    · exact Or.inr ⟨param, hparam, hshows⟩
    · simp only [List.mem_cons, List.not_mem_nil, or_false] at hpart
      rcases hpart with rfl | rfl | rfl | rfl
      · by_cases hmark : '@' ∈ parsed.netloc
        · exact Or.inl ⟨_, List.mem_cons_self .., bullet_mem_maskNetloc hmark⟩
        · refine Or.inl ⟨_, List.mem_cons_self .., ?_⟩
          rwa [maskNetloc, if_neg hmark]
      · refine Or.inl ⟨maskPath parsed.path, by simp, ?_⟩
        split_ifs at hpath
        · exact hpath
        · rwa [hpath]
      · exact Or.inl ⟨parsed.params, by simp, hbullet⟩
      · exact Or.inl ⟨parsed.fragment, by simp, hbullet⟩

/-- A mask without a bullet is the URL put together again. -/
theorem maskParts_of_not_showsBullet (hshows : ¬ ShowsBullet parsed) :
    maskParts parsed = { parsed with query := requoted parsed.query } := by
  have hnetloc : maskNetloc parsed.netloc = parsed.netloc :=
    if_neg fun hmark ↦ hshows (.userInfo hmark)
  have hpath := maskPath_cases parsed.path
  rw [if_neg fun hsegment ↦ hshows (.segment hsegment)] at hpath
  have hquery : maskQuery parsed.query = requoted parsed.query :=
    maskQuery_of_not_sensitive fun param hparam ↦ eq_false_of_ne_true fun hkey ↦
      hshows (.param param hparam (Or.inl hkey))
  rw [maskParts, hnetloc, hpath, hquery]

end Masks

/-! ### Texts that are sent back -/

/-- A URL is its scheme and the text behind it. -/
theorem eq_of_httpUrl? {secret scheme text : List Char}
    (hurl : httpUrl? secret = some (scheme, text)) :
    secret = scheme ++ "://".toList ++ text ∧ '•' ∉ scheme ∧ scheme.head? = some 'h' := by
  unfold httpUrl? at hurl
  split_ifs at hurl with hhttp hhttps
  · obtain ⟨rest, rfl⟩ := hhttp
    obtain ⟨rfl, rfl⟩ := Prod.mk.inj (Option.some.inj hurl)
    exact ⟨rfl, by decide, rfl⟩
  · obtain ⟨rest, rfl⟩ := hhttps
    obtain ⟨rfl, rfl⟩ := Prod.mk.inj (Option.some.inj hurl)
    exact ⟨rfl, by decide, rfl⟩

section Texts

variable (decrypt : String → Option String) (nfkc : List Char → List Char)

/-- The mask of a plain text shows a bullet, unless it is a URL of which nothing is hidden. -/
theorem bullet_mem_maskPlain_iff (plain : List Char) :
    '•' ∈ maskPlain nfkc plain ↔ ∀ url ∈ httpUrl? plain, ∀ parsed ∈ urlparse nfkc url.1 url.2,
      ShowsBullet parsed := by
  cases hurl : httpUrl? plain with
  | none =>
    rw [maskPlain, hurl]
    exact iff_of_true (bullet_mem_bullets 11) fun url h ↦ absurd h (Option.not_mem_none url)
  | some url =>
    obtain ⟨scheme, text⟩ := url
    rw [maskPlain, hurl]
    simp only [Option.mem_some_iff, forall_eq', maskUrl]
    cases hparse : urlparse nfkc scheme text with
    | none =>
      exact iff_of_true (List.mem_append_right _ (bullet_mem_bullets 7))
        fun parsed h ↦ absurd h (Option.not_mem_none parsed)
    | some parsed =>
      simp only [Option.mem_some_iff, forall_eq']
      refine bullet_mem_masked_iff ?_
      rw [(urlparse_eq_some hparse).1]
      exact (eq_of_httpUrl? hurl).2.1

/-- A mask without a bullet is a URL. -/
theorem httpUrl?_of_not_bullet_mem {plain : List Char} (hbullet : '•' ∉ maskPlain nfkc plain) :
    ∃ scheme text parsed, httpUrl? plain = some (scheme, text) ∧
      urlparse nfkc scheme text = some parsed ∧ ¬ ShowsBullet parsed ∧
      maskPlain nfkc plain = urlunparse { parsed with query := requoted parsed.query } := by
  rw [bullet_mem_maskPlain_iff] at hbullet
  push Not at hbullet
  obtain ⟨⟨scheme, text⟩, hurl, parsed, hparse, hshows⟩ := hbullet
  have hmask : maskPlain nfkc plain = urlunparse (maskParts parsed) := by
    rw [maskPlain, hurl]
    dsimp only
    rw [maskUrl, hparse]
  exact ⟨scheme, text, parsed, hurl, hparse, hshows,
    hmask.trans (congrArg urlunparse (maskParts_of_not_showsBullet hshows))⟩

/-- A mask without a bullet does not start like an encrypted text. -/
theorem not_encrypted_of_not_bullet_mem {plain : List Char}
    (hbullet : '•' ∉ maskPlain nfkc plain) : ¬ "ENC:v1:".toList <+: maskPlain nfkc plain := by
  obtain ⟨scheme, text, parsed, hurl, hparse, -, hmask⟩ := httpUrl?_of_not_bullet_mem nfkc hbullet
  have hhead := (eq_of_httpUrl? hurl).2.2
  rw [← (urlparse_eq_some hparse).1] at hhead
  have hmaskHead : (maskPlain nfkc plain).head? = some 'h' := by
    simp only [hmask, urlunparse, List.head?_append, hhead, Option.some_or]
  rintro ⟨rest, hrest⟩
  rw [← hrest] at hmaskHead
  exact absurd (Option.some.inj hmaskHead) (by decide)

/-- The mask of a plain text shows a bullet or is the text. -/
theorem maskPlain_survives_iff (plain : List Char) :
    '•' ∈ maskPlain nfkc plain ∨ maskPlain nfkc plain = plain ↔
      ∀ url ∈ httpUrl? plain, ∀ parsed ∈ urlparse nfkc url.1 url.2,
        ShowsBullet parsed ∨ IsShownUrl url.2 parsed := by
  by_cases hbullet : '•' ∈ maskPlain nfkc plain
  · refine iff_of_true (Or.inl hbullet) fun url hurl parsed hparse ↦ ?_
    exact Or.inl ((bullet_mem_maskPlain_iff nfkc plain).mp hbullet url hurl parsed hparse)
  · obtain ⟨scheme, text, parsed, hurl, hparse, hshows, hmask⟩ :=
      httpUrl?_of_not_bullet_mem nfkc hbullet
    have hsecret := (eq_of_httpUrl? hurl).1
    have hsame := urlunparse_requoted_eq_iff hparse
    rw [← hsecret, ← hmask] at hsame
    rw [or_iff_right hbullet, hsame, hurl]
    simp only [Option.mem_some_iff, forall_eq', hparse]
    exact (or_iff_right hshows).symm

/-- A mask that is sent is not stored, or is the text, exactly for a text that survives. -/
theorem maskSecret_survives_iff (secret : String) :
    isMasked (maskSecret decrypt nfkc secret) = true ∨ maskSecret decrypt nfkc secret = secret ↔
      Survives decrypt nfkc secret := by
  rw [maskSecret, Survives]
  by_cases hempty : secret = ""
  · rw [if_pos hempty, hempty]
    refine iff_of_true (Or.inr rfl) ?_
    rw [if_neg (by decide)]
    exact fun url hurl ↦ absurd hurl (Option.not_mem_none url)
  · rw [if_neg hempty]
    split_ifs with hencrypted
    · cases hdecrypt : decrypt secret with
      | none =>
        refine iff_of_true (Or.inl ?_) fun plain h ↦ absurd h (Option.not_mem_none plain)
        exact decide_eq_true (String.toList_ofList ▸ bullet_mem_bullets 7)
      | some plain =>
        simp only [Option.mem_some_iff, forall_eq']
        rw [← bullet_mem_maskPlain_iff, isMasked, String.toList_ofList, decide_eq_true_eq]
        refine or_iff_left_of_imp fun hsame ↦ by_contra fun hbullet ↦ ?_
        rw [← hsame, String.toList_ofList (l := maskPlain nfkc plain.toList)] at hencrypted
        exact not_encrypted_of_not_bullet_mem nfkc hbullet hencrypted
    · rw [isMasked, String.toList_ofList, decide_eq_true_eq, ← maskPlain_survives_iff]
      refine or_congr_right ⟨fun hsame ↦ ?_, fun hsame ↦ ?_⟩
      · rw [← String.toList_ofList (l := maskPlain nfkc secret.toList), hsame]
      · rw [hsame, String.ofList_toList]

end Texts

/-! ### Merges that change nothing -/

/-- Headers come back as they were exactly when each of them does. -/
theorem mergedHeaders_eq_self_iff (existingHeaders members : Dict String JsonValue) :
    members.entries.foldl (mergeHeader existingHeaders) existingHeaders = existingHeaders ↔
      ∀ name value, members.get? name = some value →
        mergedHeader (existingHeaders.get? name) value = existingHeaders.get? name := by
  refine Dict.foldl_entries_eq_self_iff (mergeHeader existingHeaders)
    (fun name value _ ↦ mergedHeader (existingHeaders.get? name) value)
    (get?_mergeHeader existingHeaders) existingHeaders (fun name value hsame ↦ ?_) members
  unfold mergeHeader
  cases value with
  | null => exact Dict.erase_eq_self hsame.symm
  | other json isTruthy => exact Dict.set_eq_self hsame.symm
  | string text =>
    rw [mergedHeader] at hsame
    dsimp only
    split_ifs at hsame ⊢
    · cases hstored : existingHeaders.get? name with
      | some stored => exact Dict.set_eq_self hstored
      | none =>
        rw [hstored] at hsame
        cases hsame
    · exact Dict.set_eq_self hsame.symm

/-- A configuration comes back as it was exactly when each of its entries does. -/
theorem mergeChannelConfig_eq_self_iff (config sent : ChannelConfig) :
    mergeChannelConfig config sent = config ↔ ∀ key value, sent.get? key = some value →
      mergedEntry config key value (config.get? key) = config.get? key := by
  refine Dict.foldl_entries_eq_self_iff (mergeEntry config) (mergedEntry config)
    (get?_mergeEntry config) config (fun key value hsame ↦ ?_) sent
  unfold mergeEntry
  match value with
  | .object members =>
    rw [mergedEntry] at hsame
    dsimp only
    split_ifs at hsame ⊢ with hheaders
    · exact Dict.set_eq_self hsame.symm
    · exact Dict.set_eq_self hsame.symm
  | .value (.string text) =>
    rw [mergedEntry, ConfigValue.isMask] at hsame
    dsimp only
    split_ifs at hsame ⊢
    · rfl
    · exact Dict.set_eq_self hsame.symm
  | .value .null => exact Dict.set_eq_self hsame.symm
  | .value (.other json isTruthy) => exact Dict.set_eq_self hsame.symm

/-- A value that is sent back as it is stored, other than the headers, is stored again. -/
theorem mergedEntry_self {config : ChannelConfig} {key : String} {value : ConfigValue}
    (hheaders : ∀ members, value = .object members → key ≠ "headers") :
    mergedEntry config key value (some value) = some value := by
  cases value with
  | object members => exact if_neg (hheaders members rfl)
  | value value => exact ite_self _

section Configurations

variable (decrypt : String → Option String) (nfkc : List Char → List Char)

/-- A field in a masked configuration. -/
def maskedField (value : ConfigValue) : ConfigValue :=
  if value.isTruthy then .value (.string (maskValue decrypt nfkc value)) else value

/-- What stands under a key of a masked configuration. -/
def maskedEntry (key : String) (value : ConfigValue) : ConfigValue :=
  if key = "webhook_url" ∨ key = "password" then maskedField decrypt nfkc value
  else if key = "headers" then
    match value with
    | .object members => .object (members.mapEntries (maskHeader decrypt nfkc))
    | other => other
  else value

theorem maskedEntry_of_field {key : String} (hfield : key = "webhook_url" ∨ key = "password")
    (value : ConfigValue) : maskedEntry decrypt nfkc key value = maskedField decrypt nfkc value :=
  if_pos hfield

theorem maskedEntry_of_ne {key : String} (hfield : ¬ (key = "webhook_url" ∨ key = "password"))
    (hheaders : key ≠ "headers") (value : ConfigValue) :
    maskedEntry decrypt nfkc key value = value :=
  (if_neg hfield).trans (if_neg hheaders)

theorem get?_maskField (key : String) (config : ChannelConfig) (other : String) :
    (maskField decrypt nfkc key config).get? other =
      if other = key then (config.get? other).map (maskedField decrypt nfkc)
      else config.get? other := by
  rw [maskField]
  cases hstored : config.get? key with
  | none =>
    split_ifs with hkey
    · rw [hkey, hstored]
      exact hstored
    · rfl
  | some value =>
    by_cases htruthy : value.isTruthy = true
    · rw [Option.filter_some, if_pos htruthy]
      dsimp only
      rw [Dict.get?_set]
      split_ifs with hkey
      · rw [hkey, hstored, Option.map_some, maskedField, if_pos htruthy]
      · rfl
    · rw [Option.filter_some, if_neg htruthy]
      dsimp only
      split_ifs with hkey
      · rw [hkey, hstored, Option.map_some, maskedField, if_neg htruthy]
      · rfl

theorem get?_maskChannelConfig (channelType : ChannelType) (config : ChannelConfig)
    (key : String) :
    (maskChannelConfig decrypt nfkc channelType config).get? key =
      (config.get? key).map (maskedEntry decrypt nfkc key) := by
  have hmasked : ∀ other, (maskField decrypt nfkc "password"
      (maskField decrypt nfkc "webhook_url" config)).get? other =
      if other = "webhook_url" ∨ other = "password" then
        (config.get? other).map (maskedField decrypt nfkc)
      else config.get? other := by
    intro other
    rw [get?_maskField, get?_maskField]
    by_cases hpassword : other = "password"
    · simp [hpassword]
    · simp [hpassword]
  have hheaders := hmasked "headers"
  rw [if_neg (by decide)] at hheaders
  have hother : key ≠ "headers" →
      (maskField decrypt nfkc "password" (maskField decrypt nfkc "webhook_url" config)).get? key =
        (config.get? key).map (maskedEntry decrypt nfkc key) := by
    intro hkey
    rw [hmasked]
    by_cases hfield : key = "webhook_url" ∨ key = "password"
    · rw [if_pos hfield, funext (maskedEntry_of_field decrypt nfkc hfield)]
    · rw [if_neg hfield, show maskedEntry decrypt nfkc key = id from
        funext (maskedEntry_of_ne decrypt nfkc hfield hkey), Option.map_id, id]
  rw [maskChannelConfig, hheaders]
  by_cases hkey : key = "headers"
  · subst hkey
    rcases hstored : config.get? "headers" with _ | value | members
    · exact hheaders.trans hstored
    · exact hheaders.trans hstored
    · exact (Dict.get?_set ..).trans (if_pos rfl)
  · rcases config.get? "headers" with _ | value | members
    · exact hother hkey
    · exact hother hkey
    · exact (Dict.get?_set ..).trans ((if_neg hkey).trans (hother hkey))

/-- A masked field that is sent back is stored again exactly for a value that survives. -/
theorem mergedEntry_maskedField_iff {config : ChannelConfig} {key : String} {value : ConfigValue}
    (hstored : config.get? key = some value) (hkey : key ≠ "headers") :
    mergedEntry config key (maskedField decrypt nfkc value) (some value) = some value ↔
      ∀ text, value = .value (.string text) → Survives decrypt nfkc text := by
  have hmem := Dict.mem_keys_of_get? hstored
  by_cases hstring : ∃ text, value = .value (.string text)
  · obtain ⟨text, rfl⟩ := hstring
    have hmasked : maskedField decrypt nfkc (.value (.string text)) =
        .value (.string (maskSecret decrypt nfkc text)) := by
      rw [maskedField]
      split_ifs with htruthy
      · rfl
      · have hempty : text = "" := by simpa [ConfigValue.isTruthy] using htruthy
        rw [hempty]
        rfl
    simp only [ConfigValue.value.injEq, JsonValue.string.injEq, forall_eq']
    rw [hmasked, ← maskSecret_survives_iff, mergedEntry, ConfigValue.isMask]
    by_cases hmask : isMasked (maskSecret decrypt nfkc text) = true
    · rw [if_pos ⟨hmask, hmem⟩]
      exact iff_of_true rfl (Or.inl hmask)
    · rw [if_neg fun h ↦ hmask h.1, or_iff_right hmask]
      simp only [Option.some_inj, ConfigValue.value.injEq, JsonValue.string.injEq]
  · refine iff_of_true ?_ fun text htext ↦ absurd ⟨text, htext⟩ hstring
    rw [maskedField]
    split_ifs with htruthy
    · have hvalue : maskValue decrypt nfkc value = String.ofList (bullets 12) := by
        unfold maskValue
        split
        · next text => exact absurd ⟨text, rfl⟩ hstring
        · rfl
      have hmask : (ConfigValue.value (.string (maskValue decrypt nfkc value))).isMask = true := by
        rw [hvalue]
        decide
      rw [← hstored, mergedEntry_of_isMask hmask, hstored, Option.some_or]
    · exact mergedEntry_self fun _ _ ↦ hkey

/-- A secret header that is sent back masked is stored again exactly for a text that survives. -/
theorem mergedHeader_maskHeader_secret_iff {name : String}
    (hname : isSensitiveHeader name = true) (value : JsonValue) :
    mergedHeader (some value) (maskHeader decrypt nfkc name value) = some value ↔
      ∀ text, value = .string text → Survives decrypt nfkc text := by
  have hheader : maskHeader decrypt nfkc name value =
      .string (maskValue decrypt nfkc (.value value)) := if_pos hname
  rw [hheader, mergedHeader, Option.some_or]
  by_cases hstring : ∃ text, value = .string text
  · obtain ⟨text, rfl⟩ := hstring
    simp only [JsonValue.string.injEq, forall_eq']
    rw [← maskSecret_survives_iff, maskValue]
    split_ifs with hmask
    · exact iff_of_true rfl (Or.inl hmask)
    · rw [or_iff_right hmask]
      simp only [Option.some_inj, JsonValue.string.injEq]
  · have hvalue : maskValue decrypt nfkc (.value value) = String.ofList (bullets 12) := by
      unfold maskValue
      split
      · next text htext => exact absurd ⟨text, ConfigValue.value.inj htext⟩ hstring
      · rfl
    have hmask : isMasked (String.ofList (bullets 12)) = true := by decide
    rw [hvalue, if_pos hmask]
    exact iff_of_true rfl fun text htext ↦ absurd ⟨text, htext⟩ hstring

/-- A header that is not masked is stored again exactly if it is not null. -/
theorem mergedHeader_maskHeader_plain_iff {name : String}
    (hname : isSensitiveHeader name = false) (value : JsonValue) :
    mergedHeader (some value) (maskHeader decrypt nfkc name value) = some value ↔
      value ≠ .null := by
  have hheader : maskHeader decrypt nfkc name value = value := by
    rw [maskHeader, hname]
    rfl
  rw [hheader]
  cases value with
  | null => exact iff_of_false (by simp [mergedHeader]) fun hne ↦ hne rfl
  | other json isTruthy => exact iff_of_true rfl (by simp)
  | string text => exact iff_of_true (by simp [mergedHeader]) (by simp)

/-- The headers that are sent back masked. -/
theorem mergedEntry_maskedHeaders_iff {config : ChannelConfig} {members : Dict String JsonValue} :
    mergedEntry config "headers" (.object (members.mapEntries (maskHeader decrypt nfkc)))
        (some (.object members)) = some (.object members) ↔
      ∀ name value, members.get? name = some value →
        mergedHeader (some value) (maskHeader decrypt nfkc name value) = some value := by
  have hmerged : mergedEntry config "headers"
      (.object (members.mapEntries (maskHeader decrypt nfkc))) (some (.object members)) =
      some (.object ((members.mapEntries (maskHeader decrypt nfkc)).entries.foldl
        (mergeHeader members) members)) := by
    rw [mergedEntry, if_pos rfl]
    rfl
  rw [hmerged, Option.some_inj, ConfigValue.object.injEq, mergedHeaders_eq_self_iff]
  refine forall_congr' fun name ↦ ?_
  rw [Dict.get?_mapEntries]
  cases members.get? name with
  | none => exact iff_of_true (fun _ h ↦ by cases h) fun _ h ↦ by cases h
  | some value => simp only [Option.map_some, Option.some_inj, forall_eq']

/-- Saving a channel with the configuration that is shown changes nothing exactly for a
configuration that comes back. -/
theorem mergeChannelConfig_maskChannelConfig_iff (channelType : ChannelType)
    (config : ChannelConfig) :
    mergeChannelConfig config (maskChannelConfig decrypt nfkc channelType config) = config ↔
      RoundTrips decrypt nfkc config := by
  have hentries : mergeChannelConfig config (maskChannelConfig decrypt nfkc channelType config) =
      config ↔ ∀ key value, config.get? key = some value →
        mergedEntry config key (maskedEntry decrypt nfkc key value) (some value) = some value := by
    rw [mergeChannelConfig_eq_self_iff]
    refine forall_congr' fun key ↦ ?_
    rw [get?_maskChannelConfig]
    cases config.get? key with
    | none => exact iff_of_true (fun _ h ↦ by cases h) fun _ h ↦ by cases h
    | some value => simp only [Option.map_some, Option.some_inj, forall_eq']
  rw [hentries]
  constructor
  · intro hall
    have hheaders : ∀ name value,
        (membersOf (config.get? "headers")).get? name = some value →
          mergedHeader (some value) (maskHeader decrypt nfkc name value) = some value := by
      rcases hstored : config.get? "headers" with _ | value | members
      · exact fun _ _ h ↦ by cases h
      · exact fun _ _ h ↦ by cases h
      · exact (mergedEntry_maskedHeaders_iff decrypt nfkc).mp (hall "headers" _ hstored)
    refine ⟨fun key text hfield hstored ↦ ?_, fun name text hname hstored ↦ ?_,
      fun name hname hstored ↦ ?_⟩
    · have hkey : key ≠ "headers" := by rcases hfield with rfl | rfl <;> decide
      have hsame := hall key _ hstored
      rw [maskedEntry_of_field decrypt nfkc hfield,
        mergedEntry_maskedField_iff decrypt nfkc hstored hkey] at hsame
      exact hsame text rfl
    · exact (mergedHeader_maskHeader_secret_iff decrypt nfkc hname _).mp
        (hheaders name _ hstored) text rfl
    · exact (mergedHeader_maskHeader_plain_iff decrypt nfkc hname _).mp
        (hheaders name _ hstored) rfl
  · intro hreturns key value hstored
    by_cases hfield : key = "webhook_url" ∨ key = "password"
    · have hkey : key ≠ "headers" := by rcases hfield with rfl | rfl <;> decide
      rw [maskedEntry_of_field decrypt nfkc hfield,
        mergedEntry_maskedField_iff decrypt nfkc hstored hkey]
      exact fun text htext ↦ hreturns.field key text hfield (htext ▸ hstored)
    · by_cases hheaders : key = "headers"
      · subst hheaders
        cases value with
        | value value => exact mergedEntry_self fun _ h ↦ by cases h
        | object members =>
          have hmembers : membersOf (config.get? "headers") = members := by
            rw [hstored]
            rfl
          refine (mergedEntry_maskedHeaders_iff decrypt nfkc).mpr fun name value hheader ↦ ?_
          rw [← hmembers] at hheader
          cases hname : isSensitiveHeader name with
          | true =>
            rw [mergedHeader_maskHeader_secret_iff decrypt nfkc hname]
            exact fun text htext ↦ hreturns.secretHeader name text hname (htext ▸ hheader)
          | false =>
            rw [mergedHeader_maskHeader_plain_iff decrypt nfkc hname]
            exact fun hnull ↦ hreturns.header name hname (hnull ▸ hheader)
      · rw [maskedEntry_of_ne decrypt nfkc hfield hheaders]
        exact mergedEntry_self fun _ _ ↦ hheaders

end Configurations

/-! ### A query that is stored unescaped -/

/-- A webhook whose query has an escaped ampersand. -/
def escapedWebhook : ChannelConfig :=
  Dict.empty.set "webhook_url" (.value (.string "https://example.com/hook?name=a%26b"))

/-- The webhook with two parameters in place of one. -/
def unescapedWebhook : ChannelConfig :=
  Dict.empty.set "webhook_url" (.value (.string "https://example.com/hook?name=a&b"))

/-- Saved as it is shown, the webhook becomes another one. -/
theorem mergeChannelConfig_escapedWebhook :
    mergeChannelConfig escapedWebhook
        (maskChannelConfig (fun _ ↦ none) id .genericWebhook escapedWebhook) = unescapedWebhook ∧
      unescapedWebhook ≠ escapedWebhook := by
  decide

end Lnmp.Alerts
