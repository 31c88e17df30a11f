import Lnmp.Alerts.MaskedPath

/-!
# What a masked URL shows

The values of secret fields never show in a masked URL. A password ends at the first `@`, and the
rest of it is shown like the host.

`maskSecret_eq_iff` says when two URLs that differ in their secrets only are masked alike.
-/

set_option autoImplicit false
set_option relaxedAutoImplicit false

namespace Lnmp.Alerts

open Lnmp.Foundation Lnmp.Foundation.IpAddress Lnmp.Foundation.PercentText Lnmp.Foundation.Url

/-! ### Masked queries -/

section Queries

variable {fields : List QueryField}

/-- The text of a field in front of its value. -/
def QueryField.name : QueryField → List Char
  | .plain field => field
  | .secret name => name

theorem not_mem_headD {char : Char} {values : List (List Char)}
    (hvalues : ∀ value ∈ values, char ∉ value) :
    char ∉ values.headD [] ∧ ∀ value ∈ values.tail, char ∉ value := by
  cases values with
  | nil => exact ⟨List.not_mem_nil, fun value h ↦ absurd h List.not_mem_nil⟩
  | cons value values => exact List.forall_mem_cons.mp hvalues

/-- A character other than the equals sign that neither the names nor the values contain. -/
theorem not_mem_fieldTexts {char : Char} (hchar : char ≠ '=') {values : List (List Char)}
    (hfields : ∀ field ∈ fields, char ∉ field.name) (hvalues : ∀ value ∈ values, char ∉ value) :
    ∀ text ∈ fieldTexts fields values, char ∉ text := by
  induction fields generalizing values with
  | nil => exact fun text h ↦ absurd h List.not_mem_nil
  | cons field fields ih =>
    obtain ⟨hfield, hrest⟩ := List.forall_mem_cons.mp hfields
    cases field with
    | plain field => exact List.forall_mem_cons.mpr ⟨hfield, ih hrest hvalues⟩
    | secret name =>
      obtain ⟨hvalue, hothers⟩ := not_mem_headD hvalues
      refine List.forall_mem_cons.mpr ⟨fun hmem ↦ ?_, ih hrest hothers⟩
      rcases List.mem_append.mp hmem with hname | hback
      · exact hfield hname
      · exact (List.mem_cons.mp hback).elim hchar hvalue

/-- A masked parameter, from its field. -/
def maskedParam (field : List Char) : List Char × List Char :=
  maskParam (unquotePlus (cut '=' field).1, unquotePlus (cut '=' field).2)

/-- The values of secret fields do not show in the masked parameters. -/
theorem map_maskedParam_fieldTexts (hfields : ∀ field ∈ fields, field.IsField)
    (values others : List (List Char)) :
    ((fieldTexts fields values).filter (· ≠ [])).map maskedParam =
      ((fieldTexts fields others).filter (· ≠ [])).map maskedParam := by
  induction fields generalizing values others with
  | nil => rfl
  | cons field fields ih =>
    obtain ⟨hfield, hrest⟩ := List.forall_mem_cons.mp hfields
    cases field with
    | plain field =>
      rw [fieldTexts, fieldTexts, List.filter_cons, List.filter_cons]
      split_ifs
      · rw [List.map_cons, List.map_cons, ih hrest values others]
      · exact ih hrest values others
    | secret name =>
      obtain ⟨-, -, hequals, hkey⟩ := hfield
      have hmask : ∀ value, maskedParam (name ++ '=' :: value) = (unquotePlus name, bullets 8) := by
        intro value
        rw [maskedParam, cut_append_cons hequals, maskParam, if_pos hkey]
      rw [fieldTexts, fieldTexts, List.filter_cons_of_pos (by simp),
        List.filter_cons_of_pos (by simp), List.map_cons, List.map_cons, hmask, hmask,
        ih hrest values.tail others.tail]

/-- A query without parameters has no secret fields. -/
theorem fieldTexts_eq_of_filter_eq_nil {values : List (List Char)}
    (hnone : (fieldTexts fields values).filter (· ≠ []) = []) (others : List (List Char)) :
    fieldTexts fields values = fieldTexts fields others := by
  induction fields generalizing values others with
  | nil => rfl
  | cons field fields ih =>
    cases field with
    | plain field =>
      rw [fieldTexts, List.filter_cons] at hnone
      split_ifs at hnone
      exact congrArg (field :: ·) (ih hnone others)
    | secret name =>
      rw [fieldTexts, List.filter_cons_of_pos (by simp)] at hnone
      exact absurd hnone (List.cons_ne_nil _ _)

/-- Two queries that differ in the values of secret fields only are masked alike. -/
theorem maskQuery_fieldTexts (hfields : ∀ field ∈ fields, field.IsField)
    {values others : List (List Char)} (hvalues : ∀ value ∈ values, '&' ∉ value)
    (hothers : ∀ value ∈ others, '&' ∉ value) :
    maskQuery (joinChars '&' (fieldTexts fields values)) =
      maskQuery (joinChars '&' (fieldTexts fields others)) := by
  have hnames : ∀ field ∈ fields, '&' ∉ field.name := by
    intro field hfield
    have hfieldOk := hfields field hfield
    cases field with
    | plain field => exact hfieldOk.1
    | secret name => exact hfieldOk.1
  have hsplit : ∀ values : List (List Char), (∀ value ∈ values, '&' ∉ value) →
      queryFields (joinChars '&' (fieldTexts fields values)) =
        (fieldTexts fields values).filter (· ≠ []) := by
    intro values hvalues
    by_cases hnone : fieldTexts fields values = []
    · rw [hnone]
      rfl
    · have hparts : ∀ part ∈ fieldTexts fields values, ∀ char ∈ part, char ≠ '&' := by
        rintro part hpart char hchar rfl
        exact not_mem_fieldTexts (by decide) hnames hvalues part hpart hchar
      rw [queryFields, splitChars_joinChars hnone hparts]
  have hmap : ∀ query, (parseQsl query).map maskParam = (queryFields query).map maskedParam :=
    fun query ↦ List.map_map
  have hmasked := map_maskedParam_fieldTexts hfields values others
  rw [← hsplit values hvalues, ← hsplit others hothers, ← hmap, ← hmap] at hmasked
  by_cases hnone : parseQsl (joinChars '&' (fieldTexts fields values)) = []
  · rw [fieldTexts_eq_of_filter_eq_nil ((hsplit values hvalues).symm.trans
      (List.map_eq_nil_iff.mp hnone)) others]
  · have hother : parseQsl (joinChars '&' (fieldTexts fields others)) ≠ [] := fun h ↦
      hnone (List.map_eq_nil_iff.mp (hmasked.trans (List.map_eq_nil_iff.mpr h)))
    rw [maskQuery, maskQuery, if_neg hnone, if_neg hother, hmasked]

end Queries

/-! ### Masked authorities -/

theorem maskNetloc_append {user password host : List Char} (huser : ':' ∉ user ∧ '@' ∉ user)
    (hpassword : '@' ∉ password) :
    maskNetloc (user ++ ':' :: password ++ '@' :: host) =
      user ++ ':' :: (bullets 8 ++ '@' :: host) := by
  have hinfo : '@' ∉ user ++ ':' :: password := by simp [huser.2, hpassword]
  rw [maskNetloc, if_pos (List.mem_append_right _ (List.mem_cons_self ..)), cut_append_cons hinfo]
  dsimp only
  rw [if_pos (List.mem_append_right _ (List.mem_cons_self ..)), cut_append_cons huser.1,
    List.append_assoc, List.cons_append]

/-- A password is shown behind its first `@`. -/
theorem maskNetloc_userInfo {user host : List Char} (huser : ':' ∉ user ∧ '@' ∉ user)
    (password : List Char) :
    maskNetloc (user ++ ':' :: (password ++ '@' :: host)) =
      user ++ ':' :: (bullets 8 ++ '@' :: (shownPassword password ++ host)) := by
  rw [shownPassword]
  split_ifs with hmark
  · obtain ⟨front, rest, rfl, hfront⟩ := List.eq_append_cons_of_mem hmark
    have hparts : user ++ ':' :: (front ++ '@' :: rest ++ '@' :: host) =
        user ++ ':' :: front ++ '@' :: (rest ++ '@' :: host) := by
      simp only [List.append_assoc, List.cons_append]
    rw [hparts, maskNetloc_append huser hfront, cut_append_cons hfront, List.append_assoc,
      List.singleton_append]
  · have hparts : user ++ ':' :: (password ++ '@' :: host) =
        user ++ ':' :: password ++ '@' :: host := by
      simp only [List.append_assoc, List.cons_append]
    rw [hparts, maskNetloc_append huser hmark, List.nil_append]

theorem slash_not_mem_maskNetloc {netloc : List Char} (hnetloc : '/' ∉ netloc) :
    '/' ∉ maskNetloc netloc := by
  have hfront : ∀ (mark : Char) (text : List Char), '/' ∉ text → '/' ∉ (cut mark text).1 :=
    fun mark text htext hslash ↦ htext ((List.takeWhile_prefix _).subset hslash)
  have hback : ∀ (mark : Char) (text : List Char), '/' ∉ text → '/' ∉ (cut mark text).2 :=
    fun mark text htext hslash ↦ htext
      ((List.dropWhile_suffix _).subset (List.mem_of_mem_tail hslash))
  have hbullets := not_mem_bullets (by decide : '/' ≠ '•') 8
  have hinfo := hfront '@' netloc hnetloc
  have hhost := hback '@' netloc hnetloc
  rw [maskNetloc]
  split_ifs
  · dsimp only
    split_ifs
    · simp [hfront ':' _ hinfo, hhost, hbullets]
    · simp [hhost, hbullets]
  · exact hnetloc

section Urls

variable {shape : UrlShape} {first second secrets : Secrets}

theorem slash_not_mem_netloc (hcarries : shape.Carries secrets) : '/' ∉ shape.netloc secrets :=
  fun hslash ↦ absurd (hcarries.netloc '/' hslash) (by decide)

/-- Two authorities are masked alike exactly if the same is shown of their passwords. -/
theorem maskNetloc_eq_iff (hfirst : shape.Carries first) :
    maskNetloc (shape.netloc first) = maskNetloc (shape.netloc second) ↔
      (shape.user ≠ none → shownPassword first.password = shownPassword second.password) := by
  rw [UrlShape.netloc, UrlShape.netloc]
  cases huser : shape.user with
  | none => exact iff_of_true rfl fun h ↦ absurd rfl h
  | some user =>
    obtain ⟨hcolon, hat, -⟩ := hfirst.user user huser
    dsimp only
    rw [maskNetloc_userInfo ⟨hcolon, hat⟩, maskNetloc_userInfo ⟨hcolon, hat⟩]
    simp

/-! ### Masked URLs -/

/-- The path behind the authority, which `urlunparse` makes absolute. -/
def absolutePath (path : List Char) : List Char :=
  if path ≠ [] ∧ path.head? ≠ some '/' then '/' :: path else path

theorem hash_not_mem_queryText (hcarries : shape.Carries secrets) :
    ∀ part ∈ shape.queryText secrets, '#' ∉ part := by
  intro part hpart hhash
  obtain ⟨fields, hquery, rfl⟩ := Option.mem_map.mp hpart
  have hnames : ∀ field ∈ fields, '#' ∉ field.name := by
    intro field hfield
    have hfieldOk := hcarries.fields fields hquery field hfield
    cases field with
    | plain field => exact hfieldOk.2
    | secret name => exact hfieldOk.2.1
  obtain ⟨text, htext, hmem⟩ := (mem_joinChars hhash).resolve_left (by decide)
  exact not_mem_fieldTexts (by decide) hnames (fun value hvalue ↦ (hcarries.values value hvalue).2)
    text htext hmem

/-- The mask of a URL whose parts end where they are said to end. -/
theorem maskUrl_of_carries {nfkc : List Char → List Char} {text : List Char}
    (hcarries : shape.Carries secrets) (htext : keptText text = shape.text secrets) :
    maskUrl nfkc shape.scheme text =
      if checkNetloc nfkc (shape.netloc secrets) then
        shape.scheme ++ "://".toList ++ (maskNetloc (shape.netloc secrets) ++
          absolutePath (shape.path.masked secrets)) ++
          (markedPart '?' (maskQuery ((shape.queryText secrets).getD [])) ++
            markedPart '#' (shape.fragment.getD []))
      else "https://".toList ++ bullets 8 := by
  have hparse : urlparse nfkc shape.scheme text = _ :=
    urlparse_of_parts htext hcarries.netloc hcarries.absolute hcarries.path
      (hash_not_mem_queryText hcarries)
  rw [maskUrl, hparse]
  split_ifs
  · simp only [urlunparse, maskParts, absolutePath, PathShape.masked, List.append_assoc]
    rfl
  · rfl

/-- The query is masked alike for all secrets. -/
theorem maskQuery_queryText (hfirst : shape.Carries first) (hsecond : shape.Carries second) :
    maskQuery ((shape.queryText first).getD []) = maskQuery ((shape.queryText second).getD []) := by
  rw [UrlShape.queryText, UrlShape.queryText]
  cases hquery : shape.query with
  | none => rfl
  | some fields =>
    exact maskQuery_fieldTexts (hfirst.fields fields hquery)
      (fun value hvalue ↦ (hfirst.values value hvalue).1)
      fun value hvalue ↦ (hsecond.values value hvalue).1

/-- Authorities and paths are masked alike together exactly if each are. -/
theorem maskNetloc_append_masked_eq_iff (hfirst : shape.Carries first)
    (hsecond : shape.Carries second) :
    maskNetloc (shape.netloc first) ++ absolutePath (shape.path.masked first) =
        maskNetloc (shape.netloc second) ++ absolutePath (shape.path.masked second) ↔
      maskNetloc (shape.netloc first) = maskNetloc (shape.netloc second) ∧
        shape.path.masked first = shape.path.masked second := by
  have hnetloc := slash_not_mem_maskNetloc (slash_not_mem_netloc hfirst)
  have hother := slash_not_mem_maskNetloc (slash_not_mem_netloc hsecond)
  cases hpath : shape.path with
  | plain path =>
    have hsame : (PathShape.plain path).masked first = (PathShape.plain path).masked second := rfl
    rw [hsame, List.append_cancel_right_eq, and_iff_left rfl]
  | webhook front provider further =>
    have hfirstPath := hfirst.tokens
    have hsecondPath := hsecond.tokens
    have hfirstHead := hfirst.absolute
    have hsecondHead := hsecond.absolute
    rw [hpath] at hfirstPath hsecondPath hfirstHead hsecondHead
    obtain ⟨rest, hrest⟩ := exists_masked_eq hfirstPath (hfirstHead (by simp [PathShape.text]))
    obtain ⟨back, hback⟩ := exists_masked_eq hsecondPath (hsecondHead (by simp [PathShape.text]))
    have habsolute : ∀ text : List Char, absolutePath ('/' :: text) = '/' :: text :=
      fun text ↦ if_neg fun h ↦ h.2 rfl
    rw [hrest, hback, habsolute, habsolute, append_cons_inj hnetloc hother, List.cons_inj_right]

end Urls

section Main

variable (decrypt : String → Option String) (nfkc : List Char → List Char)

/-- A text that starts with a scheme is neither empty nor encrypted. -/
theorem maskSecret_of_scheme {scheme text : List Char} {url : String}
    (hscheme : scheme.map Char.toLower = "http".toList ∨
      scheme.map Char.toLower = "https".toList)
    (hurl : url.toList = scheme ++ "://".toList ++ text) :
    maskSecret decrypt nfkc url = String.ofList (maskPlain nfkc url.toList) := by
  have hhead : url.toList.head?.map Char.toLower = some 'h' := by
    cases scheme with
    | nil => rcases hscheme with hnil | hnil <;> cases hnil
    | cons char rest =>
      rw [hurl]
      rcases hscheme with hsame | hsame <;> exact congrArg some (List.cons.inj hsame).1
  have hempty : url ≠ "" := by
    rintro rfl
    cases hhead
  have hencrypted : ¬ "ENC:v1:".toList <+: url.toList := by
    rintro ⟨rest, hrest⟩
    rw [← hrest] at hhead
    exact absurd (Option.some.inj hhead) (by decide)
  rw [maskSecret, if_neg hempty, if_neg hencrypted]

theorem httpUrl?_append {scheme : List Char}
    (hscheme : scheme = "http".toList ∨ scheme = "https".toList) (text : List Char) :
    httpUrl? (scheme ++ "://".toList ++ text) = some (scheme, text) := by
  rcases hscheme with rfl | rfl
  · exact if_pos ⟨text, rfl⟩
  · have hplain : ¬ "http://".toList <+: "https".toList ++ "://".toList ++ text := by
      rintro ⟨rest, hrest⟩
      have hletter := congrArg (fun chars ↦ (chars.drop 4).head?) hrest
      exact absurd (Option.some.inj hletter) (by decide)
    exact (if_neg hplain).trans (if_pos ⟨text, rfl⟩)

/-- A scheme that is not in lower case is not looked for. -/
theorem httpUrl?_eq_none {scheme : List Char}
    (hscheme : scheme.map Char.toLower = "http".toList ∨
      scheme.map Char.toLower = "https".toList)
    (hcase : ¬ (scheme = "http".toList ∨ scheme = "https".toList)) (text : List Char) :
    httpUrl? (scheme ++ "://".toList ++ text) = none := by
  have hlength := hscheme.imp (congrArg List.length) (congrArg List.length)
  rw [List.length_map] at hlength
  have hstart : ∀ start more rest : List Char,
      start ++ more ++ rest = scheme ++ "://".toList ++ text → start.length = scheme.length →
        scheme = start := by
    intro start more rest hsame hstart
    rw [List.append_assoc, List.append_assoc] at hsame
    exact (List.append_inj_left hsame hstart).symm
  have hhttp : ¬ "http://".toList <+: scheme ++ "://".toList ++ text := by
    rintro ⟨rest, hrest⟩
    rcases hlength with hfour | hfive
    · exact hcase (Or.inl (hstart "http".toList "://".toList rest hrest hfour.symm))
    · have hsame := hstart "http:".toList "//".toList rest hrest hfive.symm
      rw [hsame] at hscheme
      exact absurd hscheme (by decide)
  have hhttps : ¬ "https://".toList <+: scheme ++ "://".toList ++ text := by
    rintro ⟨rest, hrest⟩
    rcases hlength with hfour | hfive
    · exact hcase (Or.inl (hstart "http".toList "s://".toList rest hrest hfour.symm))
    · exact hcase (Or.inr (hstart "https".toList "://".toList rest hrest hfive.symm))
  rw [httpUrl?, if_neg hhttp, if_neg hhttps]

/-- A rejected URL has another mask than a URL with a password that is accepted. -/
theorem masked_ne_rejected {shape : UrlShape} {secrets : Secrets} {rest : List Char}
    (hcarries : shape.Carries secrets) (huser : shape.user ≠ none) :
    shape.scheme ++ "://".toList ++ (maskNetloc (shape.netloc secrets) ++
      absolutePath (shape.path.masked secrets)) ++ rest ≠ "https://".toList ++ bullets 8 := by
  obtain ⟨user, hsome⟩ := Option.ne_none_iff_exists'.mp huser
  obtain ⟨hcolon, hat, -⟩ := hcarries.user user hsome
  have hmem : '@' ∈ maskNetloc (shape.netloc secrets) := by
    rw [UrlShape.netloc, hsome]
    dsimp only
    rw [maskNetloc_userInfo ⟨hcolon, hat⟩]
    simp
  intro hsame
  have hmask : '@' ∈ "https://".toList ++ bullets 8 :=
    hsame ▸ List.mem_append_left _ (List.mem_append_right _ (List.mem_append_left _ hmem))
  exact absurd hmask (by decide)

/-- Two URLs that differ in their secrets only are masked alike exactly if the same is shown of
them. -/
theorem maskSecret_eq_iff {shape : UrlShape} {first second : Secrets}
    (hfirst : shape.Carries first) (hsecond : shape.Carries second) {url other : String}
    (hurl : shape.Writes first url) (hother : shape.Writes second other) :
    maskSecret decrypt nfkc url = maskSecret decrypt nfkc other ↔
      shape.SameShown nfkc first second := by
  obtain ⟨text, hurlText, hkept⟩ := hurl
  obtain ⟨otherText, hotherText, hotherKept⟩ := hother
  rw [maskSecret_of_scheme decrypt nfkc hfirst.scheme hurlText,
    maskSecret_of_scheme decrypt nfkc hsecond.scheme hotherText, String.ofList_inj, maskPlain,
    maskPlain, hurlText, hotherText]
  by_cases hlower : shape.scheme = "http".toList ∨ shape.scheme = "https".toList
  swap
  · rw [httpUrl?_eq_none hfirst.scheme hlower, httpUrl?_eq_none hsecond.scheme hlower]
    exact iff_of_true rfl fun h ↦ absurd h hlower
  rw [httpUrl?_append hlower, httpUrl?_append hlower, UrlShape.SameShown, imp_iff_right hlower]
  dsimp only
  rw [maskUrl_of_carries hfirst hkept, maskUrl_of_carries hsecond hotherKept,
    maskQuery_queryText hfirst hsecond]
  by_cases hsame : checkNetloc nfkc (shape.netloc first) = checkNetloc nfkc (shape.netloc second)
  · rw [and_iff_right hsame, ← hsame]
    split_ifs with haccepted
    · rw [List.append_cancel_right_eq, List.append_cancel_left_eq,
        maskNetloc_append_masked_eq_iff hfirst hsecond, maskNetloc_eq_iff hfirst,
        PathShape.masked_eq_iff hfirst.tokens hsecond.tokens hfirst.absolute hsecond.absolute]
      exact (imp_iff_right haccepted).symm
    · exact iff_of_true rfl fun h ↦ absurd h haccepted
  · have huser : shape.user ≠ none := by
      intro hnone
      apply hsame
      rw [UrlShape.netloc, UrlShape.netloc, hnone]
    refine iff_of_false ?_ fun h ↦ hsame h.1
    split_ifs with haccepted hotherAccepted hotherAccepted
    · exact absurd (haccepted.trans hotherAccepted.symm) hsame
    · exact masked_ne_rejected hfirst huser
    · exact (masked_ne_rejected hsecond huser).symm
    · exact absurd ((Bool.eq_false_iff.mpr haccepted).trans
        (Bool.eq_false_iff.mpr hotherAccepted).symm) hsame

end Main

/-! ### A token that is shown -/

/-- A webhook of Discord that takes the messages of Slack: a segment follows the token. -/
def slackCompatible : UrlShape where
  scheme := "https".toList
  user := none
  host := "discord.com".toList
  path := .webhook [] (.discord "123".toList) "/slack".toList
  query := none
  fragment := none

/-- The secrets of a URL that has a token only. -/
def tokenOnly (token : String) : Secrets where
  password := []
  firstToken := []
  token := token.toList
  values := []

theorem carries_slackCompatible {token : String} (htoken : token = "tokenA" ∨ token = "tokenB") :
    slackCompatible.Carries (tokenOnly token) where
  scheme := Or.inr (by decide)
  user := fun _ huser ↦ absurd huser (Option.not_mem_none _)
  netloc := fun char hchar ↦ by
    have hplain : ("discord.com".toList.all fun char ↦ !isDelimiter char) = true := by decide
    simpa using List.all_eq_true.mp hplain char hchar
  absolute := fun _ ↦ rfl
  path := by rcases htoken with rfl | rfl <;> decide
  tokens := by
    refine ⟨fun _ ↦ rfl, ?_, ?_, trivial⟩
    · rcases htoken with rfl | rfl <;> decide
    · rcases htoken with rfl | rfl <;> decide
  fields := fun _ hfields ↦ absurd hfields (Option.not_mem_none _)
  values := fun _ hvalue ↦ absurd hvalue List.not_mem_nil

theorem maskSecret_eq_iff_slackCompatible :
    maskSecret (fun _ ↦ none) id "https://discord.com/api/webhooks/123/tokenA/slack" =
        maskSecret (fun _ ↦ none) id "https://discord.com/api/webhooks/123/tokenB/slack" ↔
      slackCompatible.SameShown id (tokenOnly "tokenA") (tokenOnly "tokenB") :=
  maskSecret_eq_iff (fun _ ↦ none) id (carries_slackCompatible (Or.inl rfl))
    (carries_slackCompatible (Or.inr rfl))
    ⟨"discord.com/api/webhooks/123/tokenA/slack".toList, rfl, rfl⟩
    ⟨"discord.com/api/webhooks/123/tokenB/slack".toList, rfl, rfl⟩

/-- The mask hides the last segment in place of the token. -/
theorem tokens_shown_slackCompatible :
    maskSecret (fun _ ↦ none) id "https://discord.com/api/webhooks/123/tokenA/slack" ≠
      maskSecret (fun _ ↦ none) id "https://discord.com/api/webhooks/123/tokenB/slack" := by
  decide

end Lnmp.Alerts
