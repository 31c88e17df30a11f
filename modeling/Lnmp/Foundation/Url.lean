import Lnmp.Foundation.InetNtop
import Lnmp.Foundation.PercentText

/-!
# URLs

`urlparse`, `urlunparse`, `parse_qsl` and `urlencode` of `urllib.parse` in Python 3.12.4, for URLs
with one of the schemes `http` and `https`, of which the text behind `://` is given. Python 3.12.3
differs for a URL without an authority whose path starts with two slashes. The compatibility
normalization of Unicode, with which the parser checks the authority, is a parameter.

`urlparse` removes tabs and line breaks, and `urlunparse` leaves out an empty part together with its
mark. `unquote_urlencode` says what a query becomes that is encoded and unquoted.
-/

set_option autoImplicit false
set_option relaxedAutoImplicit false

namespace Lnmp.Foundation.Url

open IpAddress PercentText

/-! ### Parts -/

/-- What stands in front of the first separator, and what stands behind it. -/
def cut (separator : Char) (text : List Char) : List Char × List Char :=
  (text.takeWhile (· ≠ separator), (text.dropWhile (· ≠ separator)).tail)

/-- A character that `urlsplit` removes. -/
def isRemoved (char : Char) : Bool := char = '\t' || char = '\r' || char = '\n'

/-- A character that ends the authority. -/
def isDelimiter (char : Char) : Bool := char = '/' || char = '?' || char = '#'

/-- `ParseResult`. -/
structure ParseResult where
  scheme : List Char
  netloc : List Char
  path : List Char
  params : List Char
  query : List Char
  fragment : List Char
  deriving DecidableEq

/-- The text `v`, hexadecimal digits, a point and anything but a line break. -/
def isIpvFuture (host : List Char) : Bool :=
  let digits := host.tail.takeWhile fun char ↦ (hexValue? char).isSome
  let rest := (host.tail.drop digits.length).tail
  host.head? = some 'v' && !digits.isEmpty && (host.tail.drop digits.length).head? = some '.' &&
    !rest.isEmpty && '\n' ∉ rest

/-- `_check_bracketed_host`. -/
def checkBracketedHost (host : List Char) : Bool :=
  if host.head? = some 'v' then isIpvFuture host
  else
    match ipAddress (String.ofList host) with
    | some (.v6 _) => true
    | _ => false

/-- The checks of the authority: `urlsplit` raises an error where they fail. -/
def checkNetloc (nfkc : List Char → List Char) (netloc : List Char) : Bool :=
  let plain := netloc.filter fun char ↦ char ∉ ['@', ':', '#', '?']
  decide ('[' ∈ netloc ↔ ']' ∈ netloc) &&
    (!decide ('[' ∈ netloc) || checkBracketedHost (cut ']' (cut '[' netloc).2).1) &&
    (netloc.all (fun char ↦ char.toNat < 0x80) || nfkc plain = plain ||
      ['/', '?', '#', '@', ':'].all fun char ↦ char ∉ nfkc plain)

/-- `_splitparams`: parameters behind the first semicolon of the last segment. -/
def splitParams (url : List Char) : List Char × List Char :=
  let segments := splitChars '/' url
  let last := segments.getLast?.getD []
  if ';' ∈ last then
    (joinChars '/' (segments.dropLast ++ [(cut ';' last).1]), (cut ';' last).2)
  else (url, [])

/-- The text without the characters that are removed. -/
def keptText (text : List Char) : List Char := text.filter fun char ↦ !isRemoved char

/-- The URL behind its authority. -/
def urlTail (text : List Char) : List Char := text.dropWhile fun char ↦ !isDelimiter char

/-- `urlparse` of a scheme, `://` and a text; `none` where it raises an error. -/
def urlparse (nfkc : List Char → List Char) (scheme text : List Char) : Option ParseResult :=
  let netloc := (keptText text).takeWhile fun char ↦ !isDelimiter char
  let url := cut '#' (urlTail (keptText text))
  let path := splitParams (cut '?' url.1).1
  if checkNetloc nfkc netloc then
    some ⟨scheme, netloc, path.1, path.2, (cut '?' url.1).2, url.2⟩
  else none

/-- A mark and a part, or nothing for an empty part. -/
def markedPart (mark : Char) (part : List Char) : List Char :=
  if part = [] then [] else mark :: part

/-- `urlunparse`. -/
def urlunparse (result : ParseResult) : List Char :=
  let url := result.path ++ markedPart ';' result.params
  let absolute := if url ≠ [] ∧ url.head? ≠ some '/' then '/' :: url else url
  result.scheme ++ "://".toList ++ result.netloc ++ absolute ++ markedPart '?' result.query ++
    markedPart '#' result.fragment

/-! ### Cutting and joining -/

/-- What a cut removes: the separator in front of the second part, if there is one. -/
def behindMark (mark : Char) (text : List Char) : List Char :=
  if mark ∈ text then mark :: (cut mark text).2 else []

theorem cut_of_not_mem {mark : Char} {text : List Char} (hmark : mark ∉ text) :
    cut mark text = (text, []) := by
  have hne : ∀ char ∈ text, decide (char ≠ mark) = true := fun char hchar ↦
    decide_eq_true fun hsame ↦ hmark (hsame ▸ hchar)
  rw [cut, List.takeWhile_eq_self_iff.mpr hne, List.dropWhile_eq_nil_iff.mpr hne, List.tail_nil]

theorem cut_append_cons {mark : Char} {front : List Char} (hfront : mark ∉ front)
    (rest : List Char) : cut mark (front ++ mark :: rest) = (front, rest) := by
  have hne : ∀ char ∈ front, decide (char ≠ mark) = true := fun char hchar ↦
    decide_eq_true fun hsame ↦ hfront (hsame ▸ hchar)
  rw [cut, List.takeWhile_append_of_pos hne, List.dropWhile_append_of_pos hne]
  simp

/-- A text is what stands in front of the mark, and what stands behind it. -/
theorem eq_cut_append (mark : Char) (text : List Char) :
    text = (cut mark text).1 ++ behindMark mark text := by
  rw [behindMark]
  split_ifs with hmark
  · obtain ⟨front, rest, rfl, hfront⟩ := List.eq_append_cons_of_mem hmark
    rw [cut_append_cons hfront]
  · rw [cut_of_not_mem hmark, List.append_nil]

theorem not_mem_cut_fst (mark : Char) (text : List Char) : mark ∉ (cut mark text).1 := by
  intro hmem
  rw [cut] at hmem
  have hne := List.mem_takeWhile_imp hmem
  exact of_decide_eq_true hne rfl

/-- The separator tells where the first part ends. -/
theorem append_cons_inj {mark : Char} {first second : List Char} (hfirst : mark ∉ first)
    (hsecond : mark ∉ second) (rest other : List Char) :
    first ++ mark :: rest = second ++ mark :: other ↔ first = second ∧ rest = other := by
  constructor
  · intro hsame
    have hcut := congrArg (cut mark) hsame
    rw [cut_append_cons hfirst, cut_append_cons hsecond] at hcut
    exact Prod.mk.inj hcut
  · rintro ⟨rfl, rfl⟩
    rfl

theorem splitChars_of_not_mem {separator : Char} {part : List Char} (hpart : separator ∉ part) :
    splitChars separator part = [part] :=
  splitChars_of_forall_ne fun _ hchar hsame ↦ hpart (hsame ▸ hchar)

theorem not_mem_splitChars {separator : Char} {text part : List Char}
    (hpart : part ∈ splitChars separator text) : separator ∉ part := by
  induction text generalizing part with
  | nil => exact List.mem_singleton.mp hpart ▸ List.not_mem_nil
  | cons char rest ih =>
    obtain ⟨first, others, hrest⟩ := List.exists_cons_of_ne_nil (splitChars_ne_nil separator rest)
    rw [splitChars, hrest] at hpart
    rw [hrest] at ih
    split_ifs at hpart with hchar
    · rcases List.mem_cons.mp hpart with rfl | hlater
      · exact List.not_mem_nil
      · exact ih hlater
    · rcases List.mem_cons.mp hpart with rfl | hlater
      · rintro (_ | ⟨_, hmem⟩)
        · exact hchar rfl
        · exact ih (List.mem_cons_self ..) hmem
      · exact ih (List.mem_cons_of_mem _ hlater)

section Joining

variable {separator char : Char} {parts : List (List Char)} {part : List Char}

/-- The parts of a text join to it. -/
theorem joinChars_splitChars (separator : Char) (text : List Char) :
    joinChars separator (splitChars separator text) = text := by
  induction text with
  | nil => rfl
  | cons char rest ih =>
    rw [splitChars]
    obtain ⟨part, parts, hparts⟩ := List.exists_cons_of_ne_nil (splitChars_ne_nil separator rest)
    rw [hparts] at ih ⊢
    split_ifs with hchar
    · rw [joinChars, ih, hchar, List.nil_append]
    · rw [← ih]
      cases parts <;> rfl

theorem mem_joinChars_of_mem (hpart : part ∈ parts) (hchar : char ∈ part) :
    char ∈ joinChars separator parts := by
  induction parts with
  | nil => exact absurd hpart List.not_mem_nil
  | cons first rest ih =>
    cases rest with
    | nil => exact List.mem_singleton.mp hpart ▸ hchar
    | cons next rest =>
      rw [joinChars, List.mem_append]
      rcases List.mem_cons.mp hpart with rfl | hlater
      · exact Or.inl hchar
      · exact Or.inr (List.mem_cons_of_mem _ (ih hlater))

theorem length_joinChars_add_one (hne : parts ≠ []) :
    (joinChars separator parts).length + 1 = (parts.map fun part ↦ part.length + 1).sum := by
  induction parts with
  | nil => exact absurd rfl hne
  | cons part rest ih =>
    cases rest with
    | nil => rfl
    | cons next rest =>
      rw [joinChars, List.map_cons, List.sum_cons, ← ih (List.cons_ne_nil _ _), List.length_append,
        List.length_cons]
      omega

theorem count_joinChars (hchar : separator ≠ char) :
    (joinChars separator parts).count char = (parts.map fun part ↦ part.count char).sum := by
  induction parts with
  | nil => rfl
  | cons part rest ih =>
    cases rest with
    | nil => rfl
    | cons next rest =>
      rw [joinChars, List.count_append, List.count_cons_of_ne hchar, ih]
      rfl

theorem joinChars_map {change : Char → Char} (hchange : change separator = separator) :
    joinChars separator (parts.map fun part ↦ part.map change) =
      (joinChars separator parts).map change := by
  induction parts with
  | nil => rfl
  | cons part rest ih =>
    cases rest with
    | nil => rfl
    | cons next rest =>
      rw [List.map_cons] at ih
      rw [List.map_cons, List.map_cons, joinChars, ih, joinChars, List.map_append, List.map_cons,
        hchange]

end Joining

theorem joinChars_append {separator : Char} {front rest : List (List Char)} (hfront : front ≠ [])
    (hrest : rest ≠ []) :
    joinChars separator (front ++ rest) =
      joinChars separator front ++ separator :: joinChars separator rest := by
  induction front with
  | nil => exact absurd rfl hfront
  | cons part parts ih =>
    cases parts with
    | nil =>
      obtain ⟨next, others, rfl⟩ := List.exists_cons_of_ne_nil hrest
      rfl
    | cons next others =>
      have hnext := ih (List.cons_ne_nil _ _)
      rw [List.cons_append] at hnext
      rw [List.cons_append, List.cons_append, joinChars, hnext, joinChars, List.append_assoc,
        List.cons_append]

/-! ### Queries -/

/-- `parse_qsl` with blank values. -/
def parseQsl (query : List Char) : List (List Char × List Char) :=
  ((splitChars '&' query).filter (· ≠ [])).map fun field ↦
    (unquotePlus (cut '=' field).1, unquotePlus (cut '=' field).2)

/-- `urlencode`. -/
def urlencode (params : List (List Char × List Char)) : List Char :=
  joinChars '&' (params.map fun param ↦ quotePlus param.1 ++ '=' :: quotePlus param.2)

/-- A parameter as it is shown: a space is a plus, and nothing else is escaped. -/
def shownParam (param : List Char × List Char) : List Char :=
  spaceToPlus param.1 ++ '=' :: spaceToPlus param.2

/-- The text between two parameters, or behind the last one, is unquoted on its own. -/
theorem unquote_param_append (param : List Char × List Char) (rest : List Char) :
    unquote (quotePlus param.1 ++ '=' :: quotePlus param.2 ++ rest) =
      shownParam param ++ unquote rest := by
  rw [List.append_assoc, unquote_quotePlus_append, List.cons_append, unquote_cons_of_ne (by decide),
    unquote_quotePlus_append, shownParam, List.append_assoc, List.cons_append]

/-- What becomes of a query that is encoded and unquoted. -/
theorem unquote_urlencode (params : List (List Char × List Char)) :
    unquote (urlencode params) = joinChars '&' (params.map shownParam) := by
  rw [urlencode]
  induction params with
  | nil => rfl
  | cons param rest ih =>
    cases rest with
    | nil =>
      have hsingle := unquote_param_append param []
      rw [List.append_nil] at hsingle
      rw [List.map_singleton, joinChars, hsingle]
      exact List.append_nil _
    | cons next rest =>
      rw [List.map_cons, List.map_cons] at ih
      rw [List.map_cons, List.map_cons, joinChars, unquote_param_append,
        unquote_cons_of_ne (by decide), ih, List.map_cons, List.map_cons, joinChars]

/-! ### Queries that are encoded again -/

/-- The fields of a query that are not empty. -/
def queryFields (query : List Char) : List (List Char) :=
  (splitChars '&' query).filter (· ≠ [])

/-- A query that is parsed, encoded and unquoted; a query without parameters is left. -/
def requoted (query : List Char) : List Char :=
  if parseQsl query = [] then query else unquote (urlencode (parseQsl query))

/-- A field of a query in the form in which it is shown: with an equals sign, and without spaces and
escapes. -/
structure IsShownField (field : List Char) : Prop where
  equals : '=' ∈ field
  space : ' ' ∉ field
  escape : hasEscape field = false

/-- The field as it is shown. -/
def shownField (field : List Char) : List Char :=
  shownParam (unquotePlus (cut '=' field).1, unquotePlus (cut '=' field).2)

theorem length_spaceToPlus (text : List Char) : (spaceToPlus text).length = text.length :=
  List.length_map ..

theorem count_map_of_iff {change : Char → Char} {char : Char}
    (hchange : ∀ other, change other = char ↔ other = char) (text : List Char) :
    (text.map change).count char = text.count char := by
  induction text with
  | nil => rfl
  | cons other rest ih => simp only [List.map_cons, List.count_cons, ih, beq_iff_eq, hchange]

theorem count_equals_spaceToPlus (text : List Char) :
    (spaceToPlus text).count '=' = text.count '=' := by
  refine count_map_of_iff (fun char ↦ ?_) text
  by_cases hspace : char = ' ' <;> simp [hspace]

theorem count_equals_unquotePlus_le (text : List Char) :
    text.count '=' ≤ (unquotePlus text).count '=' := by
  have hplus : (plusToSpace text).count '=' = text.count '=' := by
    refine count_map_of_iff (fun char ↦ ?_) text
    by_cases hspace : char = '+' <;> simp [hspace]
  rw [← hplus]
  exact count_le_count_unquote (by decide) (by decide) (by decide) _

theorem length_unquotePlus_le (text : List Char) : (unquotePlus text).length ≤ text.length :=
  (length_unquote_le _).trans (length_plusToSpace text).le

/-- Only a field without an equals sign gets one. -/
theorem count_equals_shownField (field : List Char) :
    field.count '=' ≤ (shownField field).count '=' ∧
      ('=' ∉ field → field.count '=' < (shownField field).count '=') := by
  have hname := count_equals_unquotePlus_le (cut '=' field).1
  have hvalue := count_equals_unquotePlus_le (cut '=' field).2
  have hfield : field.count '=' = (cut '=' field).1.count '=' +
      (behindMark '=' field).count '=' := by
    rw [← List.count_append, ← eq_cut_append]
  have hbehind : (behindMark '=' field).count '=' ≤ (cut '=' field).2.count '=' + 1 := by
    rw [behindMark]
    split_ifs
    · rw [List.count_cons_self]
    · exact Nat.zero_le _
  rw [shownField, shownParam, List.count_append, List.count_cons_self, count_equals_spaceToPlus,
    count_equals_spaceToPlus]
  dsimp only
  refine ⟨by omega, fun hequals ↦ ?_⟩
  rw [List.count_eq_zero_of_not_mem hequals]
  omega

/-- A field with an equals sign is not made longer, and made shorter if it contains an escape. -/
theorem length_shownField_le {field : List Char} (hequals : '=' ∈ field) :
    (shownField field).length ≤ field.length ∧
      (hasEscape field = true → (shownField field).length < field.length) := by
  obtain ⟨name, value, rfl, hname⟩ := List.eq_append_cons_of_mem hequals
  have hnameLe := length_unquotePlus_le name
  have hvalueLe := length_unquotePlus_le value
  have hlength : (shownField (name ++ '=' :: value)).length =
      (unquotePlus name).length + (unquotePlus value).length + 1 := by
    rw [shownField, cut_append_cons hname, shownParam, List.length_append, List.length_cons,
      length_spaceToPlus, length_spaceToPlus]
    dsimp only
    omega
  rw [hlength, List.length_append, List.length_cons]
  refine ⟨by omega, fun hescape ↦ ?_⟩
  have hlt : ∀ text, hasEscape text = true → (unquotePlus text).length < text.length :=
    fun text htext ↦ (length_unquote_lt ((hasEscape_plusToSpace text).trans htext)).trans_eq
      (length_plusToSpace text)
  rw [hasEscape_append_cons (by decide) (by decide)] at hescape
  rcases Bool.or_eq_true_iff.mp hescape with hfront | hback
  · have hless := hlt name hfront
    omega
  · have hless := hlt value hback
    omega

/-- A field with an equals sign and without escapes is shown with pluses for its spaces. -/
theorem shownField_of_not_hasEscape {field : List Char} (hequals : '=' ∈ field)
    (hescape : hasEscape field = false) : shownField field = spaceToPlus field := by
  obtain ⟨name, value, rfl, hname⟩ := List.eq_append_cons_of_mem hequals
  rw [hasEscape_append_cons (by decide) (by decide), Bool.or_eq_false_iff] at hescape
  have hkept : ∀ text, hasEscape text = false → unquotePlus text = plusToSpace text :=
    fun text htext ↦ unquote_of_not_hasEscape ((hasEscape_plusToSpace text).trans htext)
  rw [shownField, cut_append_cons hname, shownParam, hkept name hescape.1, hkept value hescape.2,
    spaceToPlus_plusToSpace, spaceToPlus_plusToSpace, spaceToPlus, spaceToPlus, spaceToPlus,
    List.map_append, List.map_cons]
  rfl

/-- The counts of equals signs show which fields have none. -/
theorem sum_count_shownField (fields : List (List Char)) :
    (fields.map fun field ↦ field.count '=').sum ≤
        ((fields.filter (· ≠ [])).map fun field ↦ (shownField field).count '=').sum ∧
      (((fields.filter (· ≠ [])).map fun field ↦ (shownField field).count '=').sum =
          (fields.map fun field ↦ field.count '=').sum →
        ∀ field ∈ fields, field ≠ [] → '=' ∈ field) := by
  induction fields with
  | nil => exact ⟨le_rfl, fun _ _ hmem ↦ absurd hmem List.not_mem_nil⟩
  | cons field rest ih =>
    obtain ⟨hle, hequals⟩ := ih
    rw [List.map_cons, List.sum_cons]
    by_cases hempty : field = []
    · rw [List.filter_cons_of_neg (by simp [hempty]), hempty, List.count_nil, Nat.zero_add]
      refine ⟨hle, fun hsame other hother hne ↦ ?_⟩
      rcases List.mem_cons.mp hother with rfl | hlater
      · exact absurd rfl hne
      · exact hequals hsame other hlater hne
    · obtain ⟨hcount, hstrict⟩ := count_equals_shownField field
      rw [List.filter_cons_of_pos (by simp [hempty]), List.map_cons, List.sum_cons]
      refine ⟨Nat.add_le_add hcount hle, fun hsame other hother hne ↦ ?_⟩
      rcases List.mem_cons.mp hother with rfl | hlater
      · by_contra hnone
        have hless := hstrict hnone
        omega
      · exact hequals (by omega) other hlater hne

/-- Where all fields have an equals sign, the lengths show which are empty or contain an escape. -/
theorem sum_length_shownField {fields : List (List Char)}
    (hequals : ∀ field ∈ fields, field ≠ [] → '=' ∈ field) :
    ((fields.filter (· ≠ [])).map fun field ↦ (shownField field).length + 1).sum ≤
        (fields.map fun field ↦ field.length + 1).sum ∧
      (((fields.filter (· ≠ [])).map fun field ↦ (shownField field).length + 1).sum =
          (fields.map fun field ↦ field.length + 1).sum →
        ∀ field ∈ fields, field ≠ [] ∧ hasEscape field = false) := by
  induction fields with
  | nil => exact ⟨le_rfl, fun _ _ hmem ↦ absurd hmem List.not_mem_nil⟩
  | cons field rest ih =>
    obtain ⟨hfield, hrest⟩ := List.forall_mem_cons.mp hequals
    obtain ⟨hle, hsame⟩ := ih hrest
    rw [List.map_cons, List.sum_cons]
    by_cases hempty : field = []
    · rw [List.filter_cons_of_neg (by simp [hempty])]
      exact ⟨by omega, fun h ↦ by omega⟩
    · obtain ⟨hlength, hstrict⟩ := length_shownField_le (hfield hempty)
      rw [List.filter_cons_of_pos (by simp [hempty]), List.map_cons, List.sum_cons]
      refine ⟨by omega, fun h ↦ List.forall_mem_cons.mpr ⟨⟨hempty, ?_⟩, hsame (by omega)⟩⟩
      refine eq_false_of_ne_true fun hescape ↦ ?_
      have hless := hstrict hescape
      omega

theorem requoted_eq (query : List Char) :
    requoted query = if queryFields query = [] then query
      else joinChars '&' ((queryFields query).map shownField) := by
  have hnil : parseQsl query = [] ↔ queryFields query = [] := List.map_eq_nil_iff
  have hshown : (parseQsl query).map shownParam = (queryFields query).map shownField := by
    rw [parseQsl, List.map_map]
    rfl
  rw [requoted, unquote_urlencode, hshown]
  exact if_congr hnil rfl rfl

/-- A query to which no equals sign is added is not made longer; and if it is not made shorter, its
fields are all empty, or they all have an equals sign and no escape. -/
theorem length_requoted_le {query : List Char}
    (hcount : (requoted query).count '=' = query.count '=') :
    (requoted query).length ≤ query.length ∧
      ((requoted query).length = query.length →
        queryFields query = [] ∨
          ∀ field ∈ splitChars '&' query, '=' ∈ field ∧ hasEscape field = false) := by
  rw [requoted_eq] at hcount ⊢
  split_ifs at hcount ⊢ with hnone
  · exact ⟨le_rfl, fun _ ↦ Or.inl hnone⟩
  · have hquery := joinChars_splitChars '&' query
    have hfields : (splitChars '&' query) ≠ [] := splitChars_ne_nil '&' query
    have hshown : (queryFields query).map shownField ≠ [] := fun h ↦
      hnone (List.map_eq_nil_iff.mp h)
    have hsum : ∀ parts, (joinChars '&' parts).count '=' =
        (parts.map fun part ↦ part.count '=').sum := fun parts ↦ count_joinChars (by decide)
    have hequals : ∀ field ∈ splitChars '&' query, field ≠ [] → '=' ∈ field := by
      refine (sum_count_shownField _).2 ?_
      rw [← hsum, hquery, ← hcount, hsum, List.map_map]
      rfl
    obtain ⟨hle, hsame⟩ := sum_length_shownField hequals
    have hlength : query.length + 1 =
        ((splitChars '&' query).map fun field ↦ field.length + 1).sum := by
      rw [← length_joinChars_add_one hfields, hquery]
    have hjoined : (joinChars '&' ((queryFields query).map shownField)).length + 1 =
        (((queryFields query).map shownField).map fun part ↦ part.length + 1).sum :=
      length_joinChars_add_one hshown
    rw [List.map_map] at hjoined
    have hjoinedSame : ((queryFields query).map
        ((fun part ↦ part.length + 1) ∘ shownField)).sum =
        ((queryFields query).map fun field ↦ (shownField field).length + 1).sum := rfl
    rw [queryFields] at hjoined hjoinedSame
    rw [queryFields]
    refine ⟨by omega, fun hlast ↦ Or.inr fun field hfield ↦ ?_⟩
    obtain ⟨hne, hescape⟩ := hsame (by omega) field hfield
    exact ⟨hequals field hfield hne, hescape⟩

/-- A query whose fields have an equals sign and no escape is shown with pluses for its spaces. -/
theorem requoted_of_fields {query : List Char}
    (hfields : ∀ field ∈ splitChars '&' query, '=' ∈ field ∧ hasEscape field = false) :
    requoted query = spaceToPlus query := by
  have hall : queryFields query = splitChars '&' query := by
    refine List.filter_eq_self.mpr fun field hfield ↦ decide_eq_true ?_
    exact List.ne_nil_of_mem (hfields field hfield).1
  have hshown : (splitChars '&' query).map shownField =
      (splitChars '&' query).map fun field ↦ spaceToPlus field :=
    List.map_congr_left fun field hfield ↦
      shownField_of_not_hasEscape (hfields field hfield).1 (hfields field hfield).2
  rw [requoted_eq, hall, if_neg (splitChars_ne_nil '&' query), hshown]
  simp only [spaceToPlus]
  rw [joinChars_map (by decide), joinChars_splitChars]

theorem spaceToPlus_eq_self_iff (text : List Char) : spaceToPlus text = text ↔ ' ' ∉ text := by
  constructor
  · intro hsame hspace
    rw [← hsame] at hspace
    obtain ⟨char, -, hchar⟩ := List.mem_map.mp hspace
    split_ifs at hchar with hother
    · exact absurd hchar (by decide)
    · exact hother hchar
  · intro hspace
    refine (List.map_congr_left fun char hchar ↦ ?_).trans (List.map_id text)
    exact if_neg fun (hsame : char = ' ') ↦ hspace (hsame ▸ hchar)

/-- A query is shown as it is exactly when its fields are all empty, or are all in the form in which
they are shown. -/
theorem requoted_eq_self_iff (query : List Char) :
    requoted query = query ↔
      queryFields query = [] ∨ ∀ field ∈ splitChars '&' query, IsShownField field := by
  constructor
  · intro hsame
    rcases (length_requoted_le (congrArg (List.count '=') hsame)).2 (congrArg List.length hsame)
      with hnone | hfields
    · exact Or.inl hnone
    · refine Or.inr fun field hfield ↦ ⟨(hfields field hfield).1, ?_, (hfields field hfield).2⟩
      rw [requoted_of_fields hfields, spaceToPlus_eq_self_iff, ← joinChars_splitChars '&' query]
        at hsame
      exact fun hspace ↦ hsame (mem_joinChars_of_mem hfield hspace)
  · rintro (hnone | hfields)
    · rw [requoted_eq, if_pos hnone]
    · rw [requoted_of_fields fun field hfield ↦ ⟨(hfields field hfield).equals,
        (hfields field hfield).escape⟩, spaceToPlus_eq_self_iff]
      intro hspace
      rw [← joinChars_splitChars '&' query] at hspace
      rcases mem_joinChars hspace with hmark | ⟨field, hfield, hmem⟩
      · exact absurd hmark (by decide)
      · exact (hfields field hfield).space hmem

/-! ### URLs that are put together again -/

/-- The last segment of a path, with its parameters. -/
def lastSegment (url : List Char) : List Char := (splitChars '/' url).getLast?.getD []

/-- A URL in the form in which it is put together again: without tabs and line breaks, without a
mark that has nothing behind it, and with its query as it is shown. -/
structure IsShownUrl (text : List Char) (parsed : ParseResult) : Prop where
  kept : ∀ char ∈ text, isRemoved char = false
  fragment : '#' ∈ urlTail text → parsed.fragment ≠ []
  query : '?' ∈ (cut '#' (urlTail text)).1 → parsed.query ≠ []
  params : ';' ∈ lastSegment (cut '?' (cut '#' (urlTail text)).1).1 → parsed.params ≠ []
  shown : queryFields parsed.query = [] ∨
    ∀ field ∈ splitChars '&' parsed.query, IsShownField field

theorem joinChars_concat_append (separator : Char) (front : List (List Char))
    (first second : List Char) :
    joinChars separator (front ++ [first ++ second]) =
      joinChars separator (front ++ [first]) ++ second := by
  induction front with
  | nil => rfl
  | cons part rest ih =>
    obtain ⟨next, others, hnext⟩ : ∃ next others, rest ++ [first ++ second] = next :: others :=
      List.exists_cons_of_ne_nil (List.concat_ne_nil _ _)
    obtain ⟨other, left, hother⟩ : ∃ other left, rest ++ [first] = other :: left :=
      List.exists_cons_of_ne_nil (List.concat_ne_nil _ _)
    rw [List.cons_append, List.cons_append, hnext, hother, joinChars, joinChars, ← hnext, ← hother,
      ih, List.append_assoc, List.cons_append]

/-- A path is what `_splitparams` leaves, and the parameters behind their mark. -/
theorem eq_splitParams_append (url : List Char) :
    url = (splitParams url).1 ++
        (if ';' ∈ lastSegment url then ';' :: (splitParams url).2 else []) ∧
      (';' ∉ lastSegment url → (splitParams url).2 = []) := by
  by_cases hmark : ';' ∈ lastSegment url
  · refine ⟨?_, fun h ↦ absurd hmark h⟩
    have hcut := eq_cut_append ';' (lastSegment url)
    rw [behindMark, if_pos hmark] at hcut
    obtain ⟨front, last, hlast⟩ :=
      (List.eq_nil_or_concat (splitChars '/' url)).resolve_left (splitChars_ne_nil '/' url)
    rw [List.concat_eq_append] at hlast
    have hsegment : lastSegment url = last := by
      rw [lastSegment, hlast, List.getLast?_concat]
      rfl
    have hparams : splitParams url =
        (joinChars '/' (front ++ [(cut ';' last).1]), (cut ';' last).2) := by
      rw [lastSegment] at hmark
      rw [splitParams, if_pos hmark, ← lastSegment, hsegment, hlast, List.dropLast_concat]
    rw [if_pos hmark, hparams]
    dsimp only
    rw [← joinChars_concat_append, ← hsegment, ← hcut, hsegment, ← hlast, joinChars_splitChars]
  · have hparams : splitParams url = (url, []) := if_neg hmark
    rw [if_neg hmark, hparams]
    exact ⟨(List.append_nil _).symm, fun _ ↦ rfl⟩

/-- What `urlunparse` gives for an absolute path. -/
theorem urlunparse_of_absolute {result : ParseResult}
    (habsolute : result.path ++ markedPart ';' result.params ≠ [] →
      (result.path ++ markedPart ';' result.params).head? = some '/') :
    urlunparse result = result.scheme ++ "://".toList ++ result.netloc ++
      (result.path ++ markedPart ';' result.params) ++ markedPart '?' result.query ++
      markedPart '#' result.fragment := by
  rw [urlunparse, if_neg fun h ↦ h.2 (habsolute h.1)]

section Parse

variable {nfkc : List Char → List Char} {scheme text : List Char} {parsed : ParseResult}

/-- The parts of a URL that parses. -/
theorem urlparse_eq_some (hparse : urlparse nfkc scheme text = some parsed) :
    parsed.scheme = scheme ∧
      keptText text = parsed.netloc ++ urlTail (keptText text) ∧
      parsed.fragment = (cut '#' (urlTail (keptText text))).2 ∧
      parsed.query = (cut '?' (cut '#' (urlTail (keptText text))).1).2 ∧
      (parsed.path, parsed.params) =
        splitParams (cut '?' (cut '#' (urlTail (keptText text))).1).1 := by
  obtain ⟨-, hparsed⟩ := Option.ite_none_right_eq_some.mp hparse
  obtain rfl := Option.some.inj hparsed
  exact ⟨rfl, (List.takeWhile_append_dropWhile ..).symm, rfl, rfl, rfl⟩

/-- The URL behind the authority starts with a delimiter. -/
theorem head?_urlTail (text : List Char) {char : Char} (hchar : (urlTail text).head? = some char) :
    isDelimiter char = true := by
  have hnot := List.head?_dropWhile_not (fun char ↦ !isDelimiter char) text
  rw [urlTail] at hchar
  rw [hchar] at hnot
  simpa using hnot

/-- The path starts with a slash. -/
theorem head?_path (text : List Char)
    (hne : (cut '?' (cut '#' (urlTail text)).1).1 ≠ []) :
    (cut '?' (cut '#' (urlTail text)).1).1.head? = some '/' := by
  obtain ⟨char, rest, hpath⟩ := List.exists_cons_of_ne_nil hne
  have hquery : char ≠ '?' := by
    rintro rfl
    exact not_mem_cut_fst '?' (cut '#' (urlTail text)).1 (hpath ▸ List.mem_cons_self ..)
  have hfront := eq_cut_append '?' (cut '#' (urlTail text)).1
  rw [hpath, List.cons_append] at hfront
  have hfragment : char ≠ '#' := by
    rintro rfl
    exact not_mem_cut_fst '#' (urlTail text) (hfront ▸ List.mem_cons_self ..)
  have htail := eq_cut_append '#' (urlTail text)
  rw [hfront, List.cons_append] at htail
  have hdelimiter := head?_urlTail text (congrArg List.head? htail)
  simp only [isDelimiter, Bool.or_eq_true, decide_eq_true_eq] at hdelimiter
  rw [hpath, List.head?_cons]
  exact congrArg some ((hdelimiter.resolve_right hfragment).resolve_right hquery)

/-- What stands behind a mark is left out where it is empty. -/
theorem markedPart_eq_behindMark {mark : Char} {text : List Char}
    (hpart : mark ∈ text → (cut mark text).2 ≠ []) :
    markedPart mark (cut mark text).2 = behindMark mark text := by
  rw [markedPart, behindMark]
  by_cases hmark : mark ∈ text
  · rw [if_pos hmark, if_neg (hpart hmark)]
  · rw [if_neg hmark, cut_of_not_mem hmark, if_pos rfl]

theorem length_markedPart_le (mark : Char) (text : List Char) :
    (markedPart mark (cut mark text).2).length ≤ (behindMark mark text).length ∧
      ((markedPart mark (cut mark text).2).length = (behindMark mark text).length →
        mark ∈ text → (cut mark text).2 ≠ []) := by
  rw [markedPart, behindMark]
  by_cases hmark : mark ∈ text
  · rw [if_pos hmark]
    split_ifs with hpart
    · exact ⟨Nat.zero_le _, fun hsame ↦ absurd hsame (by simp)⟩
    · exact ⟨le_rfl, fun _ _ ↦ hpart⟩
  · rw [cut_of_not_mem hmark, if_pos rfl, if_neg hmark]
    exact ⟨le_rfl, fun _ h ↦ absurd h hmark⟩

theorem mem_markedPart {mark char : Char} (hmark : char ≠ mark) (part : List Char) :
    char ∈ markedPart mark part ↔ char ∈ part := by
  rw [markedPart]
  split_ifs with hpart
  · rw [hpart]
  · rw [List.mem_cons, or_iff_right hmark]

theorem count_markedPart {mark char : Char} (hmark : mark ≠ char) (part : List Char) :
    (markedPart mark part).count char = part.count char := by
  rw [markedPart]
  split_ifs with hpart
  · rw [hpart]
  · exact List.count_cons_of_ne hmark

theorem count_behindMark {mark char : Char} (hmark : mark ≠ char) (text : List Char) :
    (behindMark mark text).count char = (cut mark text).2.count char := by
  rw [behindMark]
  split_ifs with hmem
  · exact List.count_cons_of_ne hmark
  · rw [cut_of_not_mem hmem]

/-- A re-encoded query behind its mark, where no equals sign is added. -/
theorem length_markedPart_requoted_le {text : List Char}
    (hcount : (requoted (cut '?' text).2).count '=' = (cut '?' text).2.count '=') :
    (markedPart '?' (requoted (cut '?' text).2)).length ≤ (behindMark '?' text).length ∧
      ((markedPart '?' (requoted (cut '?' text).2)).length = (behindMark '?' text).length →
        ('?' ∈ text → (cut '?' text).2 ≠ []) ∧
          (requoted (cut '?' text).2).length = (cut '?' text).2.length) := by
  have hle := (length_requoted_le hcount).1
  rw [markedPart, behindMark]
  by_cases hmark : '?' ∈ text
  · rw [if_pos hmark, List.length_cons]
    split_ifs with hempty
    · exact ⟨Nat.zero_le _, fun hsame ↦ absurd hsame (by simp)⟩
    · rw [List.length_cons]
      refine ⟨Nat.succ_le_succ hle, fun hsame ↦ ?_⟩
      have hlength := Nat.succ.inj hsame
      refine ⟨fun _ hnil ↦ hempty ?_, hlength⟩
      rw [← List.length_eq_zero_iff, hlength, hnil]
      rfl
  · have hnil : requoted [] = [] := rfl
    rw [cut_of_not_mem hmark, if_neg hmark, if_pos hnil]
    exact ⟨le_rfl, fun _ ↦ ⟨fun h ↦ absurd h hmark, rfl⟩⟩

/-- What stands behind the mark of the parameters. -/
theorem markedPart_splitParams (url : List Char) :
    (markedPart ';' (splitParams url).2).length ≤
        (if ';' ∈ lastSegment url then ';' :: (splitParams url).2 else []).length ∧
      ((markedPart ';' (splitParams url).2).length =
          (if ';' ∈ lastSegment url then ';' :: (splitParams url).2 else []).length ↔
        (';' ∈ lastSegment url → (splitParams url).2 ≠ [])) ∧
      ((';' ∈ lastSegment url → (splitParams url).2 ≠ []) →
        markedPart ';' (splitParams url).2 =
          if ';' ∈ lastSegment url then ';' :: (splitParams url).2 else []) := by
  have hnone := (eq_splitParams_append url).2
  rw [markedPart]
  by_cases hmark : ';' ∈ lastSegment url
  · by_cases hparams : (splitParams url).2 = [] <;> simp [hmark, hparams]
  · simp [hmark, hnone hmark]

/-- The path and the parameters of a URL that parses are absolute. -/
theorem head?_path_params (url : List Char) (hurl : url ≠ [] → url.head? = some '/') :
    (splitParams url).1 ++ markedPart ';' (splitParams url).2 ≠ [] →
      ((splitParams url).1 ++ markedPart ';' (splitParams url).2).head? = some '/' := by
  intro hne
  obtain ⟨hsplit, hnone⟩ := eq_splitParams_append url
  cases hpath : (splitParams url).1 with
  | cons char rest =>
    rw [hpath, List.cons_append] at hsplit
    have hhead := hurl (hsplit ▸ List.cons_ne_nil _ _)
    rw [hsplit, List.head?_cons] at hhead
    exact hhead
  | nil =>
    rw [hpath, List.nil_append] at hsplit hne
    split_ifs at hsplit with hmark
    · have hhead := hurl (hsplit ▸ List.cons_ne_nil _ _)
      rw [hsplit, List.head?_cons, Option.some_inj] at hhead
      exact absurd hhead (by decide)
    · rw [hnone hmark] at hne
      exact absurd rfl hne

theorem count_keptText (text : List Char) : (keptText text).count '=' = text.count '=' :=
  List.count_filter (by decide)

/-- The parts of a URL, with the marks as they were. -/
theorem keptText_eq (hparse : urlparse nfkc scheme text = some parsed) :
    ∃ tail front url, tail = urlTail (keptText text) ∧ front = (cut '#' tail).1 ∧
      url = (cut '?' front).1 ∧ parsed.path = (splitParams url).1 ∧
      parsed.params = (splitParams url).2 ∧ parsed.query = (cut '?' front).2 ∧
      parsed.fragment = (cut '#' tail).2 ∧
      keptText text = parsed.netloc ++ (parsed.path ++
        (if ';' ∈ lastSegment url then ';' :: parsed.params else [])) ++
        behindMark '?' front ++ behindMark '#' tail := by
  obtain ⟨-, hkept, hfragment, hquery, hpath⟩ := urlparse_eq_some hparse
  refine ⟨_, _, _, rfl, rfl, rfl, congrArg Prod.fst hpath, congrArg Prod.snd hpath, hquery,
    hfragment, ?_⟩
  have hurl := (eq_splitParams_append (cut '?' (cut '#' (urlTail (keptText text))).1).1).1
  rw [← hpath] at hurl
  dsimp only at hurl
  rw [← hurl, List.append_assoc, List.append_assoc, ← List.append_assoc (cut '?' _).1,
    ← eq_cut_append, ← eq_cut_append]
  exact hkept

/-- A URL that is put together again has as many equals signs as the URL only if its query has. -/
theorem count_equals_query {netloc path params query fragment front tail url : List Char}
    (hquery : (cut '?' front).2 = query) (hfragment : (cut '#' tail).2 = fragment)
    (hparams : (splitParams url).2 = params) {again : List Char}
    (hcount : (netloc ++ (path ++ markedPart ';' params) ++ markedPart '?' again ++
        markedPart '#' fragment).count '=' =
      (netloc ++ (path ++ if ';' ∈ lastSegment url then ';' :: params else []) ++
        behindMark '?' front ++ behindMark '#' tail).count '=') :
    again.count '=' = query.count '=' := by
  have hmarked : (markedPart ';' params).count '=' =
      (if ';' ∈ lastSegment url then ';' :: params else []).count '=' := by
    rw [count_markedPart (by decide)]
    split_ifs with hmark
    · exact (List.count_cons_of_ne (by decide)).symm
    · rw [← hparams, (eq_splitParams_append url).2 hmark]
  have hback : (markedPart '#' fragment).count '=' = (behindMark '#' tail).count '=' := by
    rw [count_markedPart (by decide), count_behindMark (by decide), hfragment]
  have hbehind : (behindMark '?' front).count '=' = query.count '=' := by
    rw [count_behindMark (by decide), hquery]
  rw [← hbehind, ← count_markedPart (by decide : '?' ≠ '=')]
  simp only [List.count_append, hmarked, hback] at hcount
  omega

/-- A URL is put together again, with its query encoded again, to itself exactly when it is in the
form in which it is put together. -/
theorem urlunparse_requoted_eq_iff (hparse : urlparse nfkc scheme text = some parsed) :
    urlunparse { parsed with query := requoted parsed.query } = scheme ++ "://".toList ++ text ↔
      IsShownUrl text parsed := by
  have hscheme := (urlparse_eq_some hparse).1
  obtain ⟨tail, front, url, htail, hfront, hurl, hpath, hparams, hquery, hfragment, hkept⟩ :=
    keptText_eq hparse
  have hhead : url ≠ [] → url.head? = some '/' := by
    rw [hurl, hfront, htail]
    exact head?_path (keptText text)
  have habsolute := head?_path_params url hhead
  rw [← hpath, ← hparams] at habsolute
  have hunparse : urlunparse { parsed with query := requoted parsed.query } =
      scheme ++ "://".toList ++ (parsed.netloc ++ (parsed.path ++ markedPart ';' parsed.params) ++
        markedPart '?' (requoted parsed.query) ++ markedPart '#' parsed.fragment) := by
    rw [urlunparse_of_absolute (by exact habsolute), hscheme]
    simp only [List.append_assoc]
  rw [hunparse, List.append_cancel_left_eq]
  obtain ⟨hparamsLe, hparamsIff, hparamsEq⟩ := markedPart_splitParams url
  rw [← hparams] at hparamsLe hparamsIff hparamsEq
  have hfragmentLe := length_markedPart_le '#' tail
  rw [← hfragment] at hfragmentLe
  constructor
  · intro hsame
    have hcount : (requoted parsed.query).count '=' = parsed.query.count '=' := by
      have hall := (congrArg (List.count '=') hsame).trans (count_keptText text).symm
      rw [hkept] at hall
      exact count_equals_query hquery.symm hfragment.symm hparams.symm hall
    rw [hquery] at hcount
    have hqueryLe := length_markedPart_requoted_le hcount
    rw [← hquery] at hqueryLe
    have hkeptLe : (keptText text).length ≤ text.length := List.length_filter_le ..
    have hlength := congrArg List.length hsame
    have hkeptLength := congrArg List.length hkept
    simp only [List.length_append] at hlength hkeptLength
    have hall : keptText text = text := by
      refine List.filter_sublist.eq_of_length ?_
      change (keptText text).length = text.length
      omega
    have hparts := hsame.trans (hall.symm.trans hkept)
    have hquerySame := hqueryLe.2 (by omega)
    have hfragmentSame := hfragmentLe.2 (by omega)
    have hparamsSame := hparamsIff.mp (by omega)
    rw [hparamsEq hparamsSame] at hparts
    obtain ⟨hqueryParts, -⟩ := List.append_inj hparts (by simp only [List.length_append]; omega)
    have hmarks := List.append_cancel_left hqueryParts
    have hrequoted : requoted parsed.query = parsed.query := by
      by_cases hmark : '?' ∈ front
      · have hne : requoted parsed.query ≠ [] := by
          rw [← List.length_pos_iff, hquerySame.2, List.length_pos_iff]
          exact hquerySame.1 hmark
        rw [markedPart, if_neg hne, behindMark, if_pos hmark, ← hquery] at hmarks
        exact List.tail_eq_of_cons_eq hmarks
      · rw [hquery, cut_of_not_mem hmark]
        rfl
    rw [hall] at htail
    subst htail hfront hurl
    exact ⟨fun char hchar ↦ by simpa using List.filter_eq_self.mp hall char hchar, hfragmentSame,
      hquerySame.1, hparamsSame, (requoted_eq_self_iff _).mp hrequoted⟩
  · intro hshown
    have hall : keptText text = text :=
      List.filter_eq_self.mpr fun char hchar ↦ by rw [hshown.kept char hchar]; rfl
    rw [hall] at hkept htail
    subst htail hfront hurl
    rw [(requoted_eq_self_iff _).mpr hshown.shown, hparamsEq hshown.params, hquery, hfragment,
      markedPart_eq_behindMark (by rw [← hquery]; exact hshown.query),
      markedPart_eq_behindMark (by rw [← hfragment]; exact hshown.fragment)]
    exact hkept.symm

end Parse

/-! ### URLs that are written part by part -/

theorem markedPart_inj {mark : Char} {first second : List Char} :
    markedPart mark first = markedPart mark second ↔ first = second := by
  refine ⟨fun hsame ↦ ?_, congrArg (markedPart mark)⟩
  rw [markedPart, markedPart] at hsame
  split_ifs at hsame with hfirst hsecond hsecond
  · rw [hfirst, hsecond]
  · exact List.tail_eq_of_cons_eq hsame

/-- The parameters of a path are those of its last segment. -/
theorem splitParams_append_slash (front rest : List Char) :
    splitParams (front ++ '/' :: rest) =
      (front ++ '/' :: (splitParams rest).1, (splitParams rest).2) := by
  have hsegments := splitChars_append_cons '/' front rest
  have hfront := splitChars_ne_nil '/' front
  have hrest := splitChars_ne_nil '/' rest
  have hlast : (splitChars '/' (front ++ '/' :: rest)).getLast? =
      (splitChars '/' rest).getLast? := by
    rw [hsegments, List.getLast?_append_of_ne_nil _ hrest]
  rw [splitParams, splitParams, hlast, hsegments]
  split_ifs
  · have hlasts := List.concat_ne_nil (cut ';' ((splitChars '/' rest).getLast?.getD [])).1
      (splitChars '/' rest).dropLast
    rw [List.dropLast_append_of_ne_nil hrest, List.append_assoc, joinChars_append hfront hlasts,
      joinChars_splitChars]
  · rfl

/-- The parameters of a single segment. -/
theorem splitParams_of_not_mem {segment : List Char} (hsegment : '/' ∉ segment) :
    splitParams segment = cut ';' segment := by
  rw [splitParams, splitChars_of_not_mem hsegment]
  by_cases hmark : ';' ∈ segment
  · exact if_pos hmark
  · exact (if_neg hmark).trans (cut_of_not_mem hmark).symm

/-- Parameters contain no slash. -/
theorem not_mem_splitParams_snd (url : List Char) : '/' ∉ (splitParams url).2 := by
  have hlast : '/' ∉ (splitChars '/' url).getLast?.getD [] := by
    cases hsegment : (splitChars '/' url).getLast? with
    | none => exact List.not_mem_nil
    | some segment => exact not_mem_splitChars (List.mem_of_getLast? hsegment)
  rw [splitParams]
  by_cases hmark : ';' ∈ (splitChars '/' url).getLast?.getD []
  · refine fun hslash ↦ hlast ?_
    rw [if_pos hmark] at hslash
    exact (List.dropWhile_suffix _).subset (List.mem_of_mem_tail hslash)
  · rw [if_neg hmark]
    exact List.not_mem_nil

theorem lastSegment_append {front rest : List Char} (hrest : '/' ∉ rest) :
    lastSegment (front ++ '/' :: rest) = rest := by
  rw [lastSegment, splitChars_append_cons, splitChars_of_not_mem hrest, List.getLast?_concat]
  rfl

/-- A part with its mark in front, where there is one. -/
def withMark (mark : Char) (part : Option (List Char)) : List Char :=
  part.elim [] (mark :: ·)

theorem cut_append_withMark {mark : Char} {front : List Char} (hfront : mark ∉ front)
    (part : Option (List Char)) :
    cut mark (front ++ withMark mark part) = (front, part.getD []) := by
  cases part with
  | none => rw [withMark, Option.elim_none, List.append_nil, cut_of_not_mem hfront]; rfl
  | some part => exact cut_append_cons hfront part

/-- A URL that is written part by part parses to its parts, where its authority is accepted. -/
theorem urlparse_of_parts {nfkc : List Char → List Char} {scheme text netloc path : List Char}
    {query fragment : Option (List Char)}
    (hkept : keptText text = netloc ++ path ++ withMark '?' query ++ withMark '#' fragment)
    (hnetloc : ∀ char ∈ netloc, isDelimiter char = false)
    (habsolute : path ≠ [] → path.head? = some '/')
    (hpath : '?' ∉ path ∧ '#' ∉ path) (hquery : ∀ part ∈ query, '#' ∉ part) :
    urlparse nfkc scheme text =
      if checkNetloc nfkc netloc then
        some ⟨scheme, netloc, (splitParams path).1, (splitParams path).2, query.getD [],
          fragment.getD []⟩
      else none := by
  have hplain : ∀ char ∈ netloc, (!isDelimiter char) = true := fun char hchar ↦ by
    rw [hnetloc char hchar]
    rfl
  have hdelimiter : ((path ++ withMark '?' query ++ withMark '#' fragment).head?.map
      isDelimiter).getD true = true := by
    cases path with
    | cons char rest =>
      have hslash := Option.some.inj (habsolute (List.cons_ne_nil _ _))
      rw [List.cons_append, List.cons_append, List.head?_cons, hslash]
      rfl
    | nil =>
      cases query with
      | some part => rfl
      | none =>
        cases fragment with
        | some part => rfl
        | none => rfl
  rw [List.append_assoc, List.append_assoc] at hkept
  have htake : (keptText text).takeWhile (fun char ↦ !isDelimiter char) = netloc := by
    rw [hkept, List.takeWhile_append_of_pos hplain]
    cases hrest : path ++ (withMark '?' query ++ withMark '#' fragment) with
    | nil => exact List.append_nil _
    | cons char rest =>
      rw [← List.append_assoc] at hrest
      rw [hrest] at hdelimiter
      rw [List.takeWhile_cons_of_neg (by simpa using hdelimiter), List.append_nil]
  have htail : urlTail (keptText text) =
      path ++ withMark '?' query ++ withMark '#' fragment := by
    have hboth : (keptText text).takeWhile (fun char ↦ !isDelimiter char) ++
        urlTail (keptText text) = keptText text := List.takeWhile_append_dropWhile ..
    rw [List.append_assoc]
    rw [htake] at hboth
    exact List.append_cancel_left (hboth.trans hkept)
  have hfront : '#' ∉ path ++ withMark '?' query := by
    cases query with
    | none => simpa [withMark] using hpath.2
    | some part => simpa [withMark] using ⟨hpath.2, hquery part rfl⟩
  rw [urlparse, htake, htail, cut_append_withMark hfront, cut_append_withMark hpath.1]

end Lnmp.Foundation.Url
