import Lnmp.Alerts.UrlSecrets
import Mathlib.Data.List.DropRight

/-!
# Masked paths

The mask finds the tokens of a path by position. A token of Discord or Slack is taken to be the last
segment that is not empty; the tokens of Teams are the two behind the segment `IncomingWebhook`,
unless the path looks like one of the other providers.

`PathShape.masked_eq_iff` says when two paths that differ in their tokens are masked alike.
-/

set_option autoImplicit false
set_option relaxedAutoImplicit false

namespace Lnmp.Alerts

open Lnmp.Foundation Lnmp.Foundation.IpAddress Lnmp.Foundation.PercentText Lnmp.Foundation.Url

/-! ### The last segment -/

section LastSegment

variable {lead token tail : List Char}

theorem two_le_length_splitChars {text : List Char} (hslash : '/' ∈ text) :
    2 ≤ (splitChars '/' text).length := by
  obtain ⟨front, rest, rfl, -⟩ := List.eq_append_cons_of_mem hslash
  have hfront := List.length_pos_iff.mpr (splitChars_ne_nil '/' front)
  have hrest := List.length_pos_iff.mpr (splitChars_ne_nil '/' rest)
  rw [splitChars_append_cons, List.length_append]
  omega

/-- Slashes are removed in front of the first other character only. -/
theorem dropWhile_slash_append (hlead : lead.dropWhile (· = '/') ≠ []) (tail : List Char) :
    (lead ++ tail).dropWhile (· = '/') = lead.dropWhile (· = '/') ++ tail := by
  rw [List.dropWhile_append, if_neg (by simpa using hlead)]

theorem stripSlashes_append (hlead : lead.dropWhile (· = '/') ≠ []) {segment slashes : List Char}
    (hne : segment ≠ []) (hsegment : '/' ∉ segment) (hslashes : ∀ char ∈ slashes, char = '/') :
    stripSlashes (lead ++ '/' :: (segment ++ slashes)) =
      lead.dropWhile (· = '/') ++ '/' :: segment := by
  obtain ⟨init, last, rfl⟩ := (List.eq_nil_or_concat segment).resolve_left hne
  rw [List.concat_eq_append] at hsegment ⊢
  have hlast : last ≠ '/' := by
    rintro rfl
    exact hsegment (List.mem_append_right _ (List.mem_singleton_self _))
  have hall : ∀ char ∈ slashes.reverse, decide (char = '/') = true := fun char hchar ↦
    decide_eq_true (hslashes char (List.mem_reverse.mp hchar))
  rw [stripSlashes, dropWhile_slash_append hlead]
  simp only [List.reverse_append, List.reverse_cons, List.append_assoc]
  rw [List.dropWhile_append_of_pos hall]
  simp [hlast]

/-- The last segment that is not empty is masked, and slashes at both ends are removed. -/
theorem maskLastSegment_append (hlead : '/' ∈ lead.dropWhile (· = '/'))
    {segment slashes : List Char} (hne : segment ≠ []) (hsegment : '/' ∉ segment)
    (hslashes : ∀ char ∈ slashes, char = '/') :
    maskLastSegment (lead ++ '/' :: (segment ++ slashes)) =
      '/' :: (lead.dropWhile (· = '/') ++ '/' :: bullets 8) := by
  have hsingle := splitChars_of_not_mem hsegment
  have hsplit : splitChars '/' (lead.dropWhile (· = '/') ++ '/' :: segment) =
      splitChars '/' (lead.dropWhile (· = '/')) ++ [segment] := by
    rw [splitChars_append_cons, hsingle]
  have hlength := two_le_length_splitChars hlead
  rw [maskLastSegment, stripSlashes_append (List.ne_nil_of_mem hlead) hne hsegment hslashes, hsplit]
  rw [if_pos (by rw [List.length_append, List.length_singleton]; omega), List.dropLast_concat,
    joinChars_append (splitChars_ne_nil _ _) (List.cons_ne_nil _ _), joinChars_splitChars]
  rfl

/-- The last segment of a path behind its tokens, and what stands in front of it. -/
theorem exists_lastSegment (habsolute : tail ≠ [] → tail.head? = some '/')
    (hother : ¬ ∀ char ∈ tail, char = '/') :
    ∃ mid segment slashes, tail = mid ++ '/' :: (segment ++ slashes) ∧ segment ≠ [] ∧
      '/' ∉ segment ∧ (∀ char ∈ slashes, char = '/') ∧ (mid ≠ [] → mid.head? = some '/') := by
  have htail := List.rdropWhile_append_rtakeWhile (p := (· = '/')) (l := tail)
  have hslashes : ∀ char ∈ tail.rtakeWhile (· = '/'), char = '/' := by
    intro char hchar
    have hslash := List.mem_rtakeWhile_imp hchar
    exact of_decide_eq_true hslash
  have hne : tail.rdropWhile (· = '/') ≠ [] := fun hnil ↦ by
    simp only [List.rdropWhile_eq_nil_iff, decide_eq_true_eq] at hnil
    exact hother hnil
  have hlast := List.rdropWhile_last_not _ _ hne
  generalize tail.rdropWhile (· = '/') = core at htail hne hlast
  generalize tail.rtakeWhile (· = '/') = slashes at htail hslashes
  subst htail
  have hhead := habsolute (List.append_ne_nil_of_left_ne_nil hne _)
  rw [List.head?_append_of_ne_nil _ hne] at hhead
  -- the last slash of what is left is in front of the last segment
  obtain ⟨back, front, hback, hslash⟩ :=
    List.eq_append_cons_of_mem (List.mem_reverse.mpr (List.mem_of_head? hhead))
  have hcore : core = front.reverse ++ '/' :: back.reverse := by
    rw [← List.reverse_reverse core, hback]
    simp
  refine ⟨front.reverse, back.reverse, slashes, ?_, ?_, ?_, hslashes, ?_⟩
  · rw [hcore, List.append_assoc, List.cons_append]
  · intro hnil
    rw [hnil] at hcore
    subst hcore
    exact hlast (by simp)
  · rwa [List.mem_reverse]
  · intro hfront
    rw [hcore, List.head?_append_of_ne_nil _ hfront] at hhead
    exact hhead

/-- A segment behind the token, if it is not empty, is masked in its place. -/
theorem exists_maskLastSegment_token (habsolute : tail ≠ [] → tail.head? = some '/')
    (hother : ¬ ∀ char ∈ tail, char = '/') :
    ∃ back, ∀ lead token : List Char, '/' ∈ lead.dropWhile (· = '/') →
      maskLastSegment (lead ++ '/' :: (token ++ tail)) =
        '/' :: (lead.dropWhile (· = '/') ++ '/' :: (token ++ '/' :: back)) := by
  obtain ⟨mid, segment, slashes, rfl, hne, hsegment, hslashes, hmid⟩ :=
    exists_lastSegment habsolute hother
  have hmask : ∀ lead token : List Char, '/' ∈ lead.dropWhile (· = '/') →
      maskLastSegment (lead ++ '/' :: (token ++ (mid ++ '/' :: (segment ++ slashes)))) =
        '/' :: (lead.dropWhile (· = '/') ++ '/' :: (token ++ (mid ++ '/' :: bullets 8))) := by
    intro lead token hlead
    have hdrop := dropWhile_slash_append (List.ne_nil_of_mem hlead) ('/' :: (token ++ mid))
    have hlast : maskLastSegment (lead ++ '/' :: (token ++ mid) ++ '/' :: (segment ++ slashes)) =
        '/' :: ((lead ++ '/' :: (token ++ mid)).dropWhile (· = '/') ++ '/' :: bullets 8) :=
      maskLastSegment_append (hdrop ▸ List.mem_append_left _ hlead) hne hsegment hslashes
    rw [hdrop] at hlast
    simpa only [List.append_assoc, List.cons_append] using hlast
  cases mid with
  | nil => exact ⟨bullets 8, hmask⟩
  | cons slash mid =>
    obtain rfl := Option.some.inj (hmid (List.cons_ne_nil _ _))
    exact ⟨mid ++ '/' :: bullets 8, hmask⟩

end LastSegment

/-! ### Tokens of Teams -/

/-- The first segment `IncomingWebhook` that two segments follow is found, and they are masked. -/
theorem maskTeamsTokens_append {front : List (List Char)} {hook first second : List Char}
    (hfront : ∀ segment ∈ front, isIncomingWebhook segment = false)
    (hhook : isIncomingWebhook hook = true) (hfirst : first ≠ []) (hsecond : second ≠ [])
    (rest : List (List Char)) :
    hasTeamsTokens (front ++ hook :: first :: second :: rest) = true ∧
      maskTeamsTokens (front ++ hook :: first :: second :: rest) =
        front ++ hook :: bullets 12 :: bullets 12 :: maskTeamsTokens rest := by
  induction front with
  | nil =>
    rw [List.nil_append, List.nil_append, hasTeamsTokens, maskTeamsTokens,
      if_pos ⟨hhook, hfirst, hsecond⟩]
    exact ⟨by simp [hhook, hfirst, hsecond], rfl⟩
  | cons segment front ih =>
    obtain ⟨hsegment, hrest⟩ := List.forall_mem_cons.mp hfront
    obtain ⟨hhas, hmask⟩ := ih hrest
    obtain ⟨next, other, others, hnext⟩ : ∃ next other others,
        front ++ hook :: first :: second :: rest = next :: other :: others := by
      cases front with
      | nil => exact ⟨hook, first, second :: rest, rfl⟩
      | cons next front =>
        cases front with
        | nil => exact ⟨next, hook, first :: second :: rest, rfl⟩
        | cons other front => exact ⟨next, other, _, rfl⟩
    rw [hnext] at hhas hmask
    rw [List.cons_append, hnext, hasTeamsTokens, maskTeamsTokens, hhas, hmask, if_neg]
    · exact ⟨Bool.or_true _, rfl⟩
    · exact fun h ↦ Bool.false_ne_true (hsegment.symm.trans h.1)

/-- The masked path behind the tokens of Teams. -/
def teamsBack (tail : List Char) : List Char :=
  joinChars '/' ([] :: maskTeamsTokens (splitChars '/' tail).tail)

theorem joinChars_cons (separator : Char) (part : List Char) (parts : List (List Char)) :
    joinChars separator (part :: parts) = part ++ joinChars separator ([] :: parts) := by
  cases parts with
  | nil => exact (List.append_nil part).symm
  | cons next others => rfl

/-- A part of a path that is empty or starts with a slash. -/
theorem splitChars_of_head? {text : List Char} (htext : text ≠ [] → text.head? = some '/') :
    splitChars '/' text = [] :: (splitChars '/' text).tail := by
  cases text with
  | nil => rfl
  | cons char rest =>
    obtain rfl := Option.some.inj (htext (List.cons_ne_nil _ _))
    rfl

theorem not_mem_of_isIncomingWebhook {hook : List Char} (hhook : isIncomingWebhook hook = true) :
    '/' ∉ hook := by
  intro hslash
  have hmem : ignoreCase '/' ∈ hook.map ignoreCase := List.mem_map_of_mem hslash
  rw [isIncomingWebhook, decide_eq_true_eq] at hhook
  rw [hhook] at hmem
  exact absurd hmem (by decide)

theorem splitChars_token {token tail : List Char} (htoken : '/' ∉ token)
    (htail : tail ≠ [] → tail.head? = some '/') :
    splitChars '/' (token ++ tail) = token :: (splitChars '/' tail).tail := by
  have hsingle := splitChars_of_not_mem htoken
  cases tail with
  | nil => rw [List.append_nil, hsingle]; rfl
  | cons char rest =>
    obtain rfl := Option.some.inj (htail (List.cons_ne_nil _ _))
    rw [splitChars_append_cons, hsingle]
    rfl

/-- The mask of a path of Teams that is taken for one. -/
theorem maskPath_teams {front hook first token tail : List Char}
    (hmark : ¬ (discordMark <:+: front ++ '/' :: hook ++ '/' :: first ++ '/' :: (token ++ tail) ∨
      slackMark <:+: front ++ '/' :: hook ++ '/' :: first ++ '/' :: (token ++ tail)))
    (habsolute : front ≠ [] → front.head? = some '/')
    (hfront : ∀ segment ∈ splitChars '/' front, isIncomingWebhook segment = false)
    (hhook : isIncomingWebhook hook = true) (hfirst : first ≠ [] ∧ '/' ∉ first)
    (htoken : token ≠ [] ∧ '/' ∉ token) (htail : tail ≠ [] → tail.head? = some '/') :
    maskPath (front ++ '/' :: hook ++ '/' :: first ++ '/' :: (token ++ tail)) =
      front ++ '/' :: hook ++ '/' :: (bullets 12 ++ '/' :: (bullets 12 ++ teamsBack tail)) := by
  have hsplit : splitChars '/' (front ++ '/' :: hook ++ '/' :: first ++ '/' :: (token ++ tail)) =
      [] :: ((splitChars '/' front).tail ++
        hook :: first :: token :: (splitChars '/' tail).tail) := by
    rw [splitChars_append_cons, splitChars_append_cons, splitChars_append_cons,
      splitChars_of_not_mem (not_mem_of_isIncomingWebhook hhook), splitChars_of_not_mem hfirst.2,
      splitChars_token htoken.2 htail]
    conv_lhs => rw [splitChars_of_head? habsolute]
    simp only [List.cons_append, List.append_assoc, List.nil_append]
  obtain ⟨hhas, hmask⟩ := maskTeamsTokens_append
    (fun segment hsegment ↦ hfront segment (List.mem_of_mem_tail hsegment)) hhook hfirst.1 htoken.1
    (splitChars '/' tail).tail
  obtain ⟨hdiscord, hslack⟩ := not_or.mp hmark
  rw [maskPath, if_neg hdiscord, if_neg hslack, hsplit, List.tail_cons, if_pos hhas, hmask,
    List.take_succ_cons, List.take_zero, List.singleton_append]
  rw [← List.cons_append, ← splitChars_of_head? habsolute,
    joinChars_append (splitChars_ne_nil _ _) (List.cons_ne_nil _ _), joinChars_splitChars]
  rw [joinChars, joinChars, joinChars_cons, teamsBack]
  simp only [List.append_assoc, List.cons_append]

/-! ### Masked paths -/

section Paths

variable {lead further : List Char}

theorem head?_splitParams (hfurther : further ≠ [] → further.head? = some '/') :
    (splitParams further).1 ≠ [] → (splitParams further).1.head? = some '/' := by
  cases further with
  | nil => exact fun h ↦ absurd rfl h
  | cons char rest =>
    obtain rfl := Option.some.inj (hfurther (List.cons_ne_nil _ _))
    have hsplit := splitParams_append_slash [] rest
    rw [List.nil_append, List.nil_append] at hsplit
    rw [hsplit]
    exact fun _ ↦ rfl

/-- The parameters of a path are those of its last token if no segment follows. -/
theorem splitParams_token {token : List Char} (htoken : '/' ∉ token)
    (hfurther : further ≠ [] → further.head? = some '/') :
    splitParams (lead ++ '/' :: (token ++ further)) =
      (lead ++ '/' :: (pathToken further token ++ (splitParams further).1),
        pathParams further token) := by
  cases further with
  | nil =>
    rw [List.append_nil, splitParams_append_slash, splitParams_of_not_mem htoken, pathToken,
      pathParams, if_pos rfl, if_pos rfl, show (splitParams []).1 = [] from rfl, List.append_nil]
  | cons char rest =>
    obtain rfl := Option.some.inj (hfurther (List.cons_ne_nil _ _))
    have hfront := splitParams_append_slash (lead ++ '/' :: token) rest
    have hrest := splitParams_append_slash [] rest
    rw [List.nil_append, List.nil_append] at hrest
    rw [pathToken, pathParams, if_neg (List.cons_ne_nil _ _), if_neg (List.cons_ne_nil _ _), hrest]
    simpa only [List.append_assoc, List.cons_append] using hfront

theorem not_mem_pathToken {token : List Char} (htoken : '/' ∉ token) :
    '/' ∉ pathToken further token := by
  rw [pathToken]
  split_ifs
  · exact fun hslash ↦ htoken ((List.takeWhile_prefix _).subset hslash)
  · exact htoken

/-- The masked path and its parameters, where the last segment is masked. -/
def lastMasked (lead further token : List Char) : List Char :=
  maskLastSegment (lead ++ '/' :: (pathToken further token ++ (splitParams further).1)) ++
    markedPart ';' (pathParams further token)

section Tokens

variable {token other : List Char} (hlead : '/' ∈ lead.dropWhile (· = '/'))
  (hfurther : further ≠ [] → further.head? = some '/')
  (htoken : pathToken further token ≠ [] ∧ '/' ∉ token)
include hlead hfurther htoken

/-- What stands in front of the last token is shown. -/
theorem exists_lastMasked_eq :
    ∃ back, lastMasked lead further token = '/' :: (lead.dropWhile (· = '/') ++ '/' :: back) := by
  rw [lastMasked]
  by_cases hslashes : ∀ char ∈ (splitParams further).1, char = '/'
  · rw [maskLastSegment_append hlead htoken.1 (not_mem_pathToken htoken.2) hslashes]
    exact ⟨bullets 8 ++ markedPart ';' (pathParams further token), by
      simp only [List.append_assoc, List.cons_append]⟩
  · obtain ⟨back, hback⟩ := exists_maskLastSegment_token (head?_splitParams hfurther) hslashes
    rw [hback lead _ hlead]
    exact ⟨pathToken further token ++ '/' :: back ++ markedPart ';' (pathParams further token), by
      simp only [List.append_assoc, List.cons_append]⟩

/-- Two tokens are masked alike exactly if the same is shown of them. -/
theorem lastMasked_eq_iff (hother : pathToken further other ≠ [] ∧ '/' ∉ other) :
    lastMasked lead further token = lastMasked lead further other ↔
      shownToken further token = shownToken further other := by
  have hpath : '/' ∉ pathToken further token := not_mem_pathToken htoken.2
  have hotherPath : '/' ∉ pathToken further other := not_mem_pathToken hother.2
  have hall : ((splitParams further).1.all (· = '/')) = true ↔
      ∀ char ∈ (splitParams further).1, char = '/' := by
    simp only [List.all_eq_true, decide_eq_true_eq]
  rw [lastMasked, lastMasked, shownToken, shownToken]
  by_cases hslashes : ∀ char ∈ (splitParams further).1, char = '/'
  · rw [maskLastSegment_append hlead htoken.1 hpath hslashes,
      maskLastSegment_append hlead hother.1 hotherPath hslashes, List.append_cancel_left_eq,
      markedPart_inj, pathParams, pathParams, if_pos (hall.mpr hslashes),
      if_pos (hall.mpr hslashes)]
    split_ifs
    · rfl
    · exact iff_of_true rfl rfl
  · have hne : further ≠ [] := by
      rintro rfl
      exact hslashes fun char hchar ↦ absurd hchar List.not_mem_nil
    obtain ⟨back, hback⟩ := exists_maskLastSegment_token (head?_splitParams hfurther) hslashes
    rw [hback lead _ hlead, hback lead _ hlead, pathParams, pathParams, pathToken, pathToken]
    simp only [if_neg hne, if_neg (hall.not.mpr hslashes), List.append_cancel_right_eq,
      List.cons.injEq, true_and, List.append_cancel_left_eq]

end Tokens

theorem mem_dropWhile_slash {char : Char} (hchar : char ≠ '/') {rest : List Char}
    (hrest : '/' ∈ rest) (front : List Char) :
    '/' ∈ (front ++ char :: rest).dropWhile (· = '/') := by
  rw [List.dropWhile_append]
  split_ifs
  · rw [List.dropWhile_cons_of_neg (by simpa using hchar)]
    exact List.mem_cons_of_mem _ hrest
  · exact List.mem_append_right _ (List.mem_cons_of_mem _ hrest)

end Paths

/-! ### Paths of Teams -/

/-- A text without a character stands in front of it or behind it. -/
theorem infix_append_cons {char : Char} {text : List Char} (hchar : char ∉ text)
    {front rest : List Char} (hinside : text <:+: front ++ char :: rest) :
    text <:+: front ∨ text <:+: rest := by
  obtain ⟨before, behind, hsame⟩ := hinside
  rcases List.append_eq_append_iff.mp hsame with ⟨more, hfront, -⟩ | ⟨more, hbefore, hrest⟩
  · exact Or.inl ⟨before, more, hfront.symm⟩
  · rcases List.append_eq_append_iff.mp hbefore with ⟨start, hstart, htext⟩ | ⟨gap, -, hmore⟩
    · cases more with
      | nil => exact Or.inl ⟨before, [], by rw [List.append_nil, hstart, htext, List.append_nil]⟩
      | cons other more =>
        obtain rfl := (List.cons.inj hrest).1
        exact absurd (htext ▸ List.mem_append_right _ (List.mem_cons_self ..)) hchar
    · rw [hmore, List.append_assoc] at hrest
      cases gap with
      | nil =>
        cases text with
        | nil => exact Or.inl List.nil_infix
        | cons other text =>
          obtain rfl := (List.cons.inj hrest).1
          exact absurd (List.mem_cons_self ..) hchar
      | cons other gap =>
        exact Or.inr ⟨gap, behind, by rw [List.append_assoc]; exact (List.cons.inj hrest).2.symm⟩

theorem infix_bullets_append {text : List Char} (hne : text ≠ []) (hbullet : '•' ∉ text)
    {count : ℕ} {rest : List Char} (hinside : text <:+: bullets count ++ rest) :
    text <:+: rest := by
  induction count with
  | zero => exact hinside
  | succ count ih =>
    have hcons : text <:+: [] ++ '•' :: (bullets count ++ rest) := hinside
    refine (infix_append_cons hbullet hcons).elim (fun hnil ↦ ?_) ih
    exact absurd (List.infix_nil.mp hnil) hne

/-- A mark that a path contains whose tokens are bullets stands in front of them or behind them. -/
theorem infix_tokens_of_bullets {mark front tail : List Char} (hne : mark ≠ [])
    (hbullet : '•' ∉ mark)
    (hinside : mark <:+: front ++ '/' :: bullets 12 ++ '/' :: (bullets 12 ++ tail))
    (first token : List Char) : mark <:+: front ++ '/' :: first ++ '/' :: (token ++ tail) := by
  have hfirst : mark <:+: (front ++ ['/']) ++
      '•' :: (bullets 11 ++ '/' :: (bullets 12 ++ tail)) := by
    simpa [bullets, List.replicate_succ] using hinside
  rcases infix_append_cons hbullet hfirst with hfront | hrest
  · exact hfront.trans ⟨[], first ++ '/' :: (token ++ tail), by simp⟩
  · have hsecond : mark <:+: ['/'] ++ '•' :: (bullets 11 ++ tail) :=
      infix_bullets_append hne hbullet hrest
    rcases infix_append_cons hbullet hsecond with hslash | hback
    · exact hslash.trans ⟨front, first ++ '/' :: (token ++ tail), by simp⟩
    · refine (infix_bullets_append hne hbullet hback).trans ⟨front ++ '/' :: first ++ '/' :: token,
        [], by simp⟩

theorem maskTeamsTokens_of_not {segments : List (List Char)}
    (hsegments : ∀ segment ∈ segments, isIncomingWebhook segment = false) :
    maskTeamsTokens segments = segments := by
  induction segments using maskTeamsTokens.induct with
  | case1 hook first second rest hhook ih =>
    exact absurd hhook.1 (by simp [hsegments hook (List.mem_cons_self ..)])
  | case2 hook first second rest hhook ih =>
    rw [maskTeamsTokens, if_neg hhook, ih fun segment hsegment ↦
      hsegments segment (List.mem_cons_of_mem _ hsegment)]
  | case3 segments hother =>
    rw [maskTeamsTokens]
    exact hother

/-- Slashes behind the tokens are left. -/
theorem teamsBack_of_slashes {tail : List Char} (hslashes : ∀ char ∈ tail, char = '/') :
    teamsBack tail = tail := by
  have hhead : tail ≠ [] → tail.head? = some '/' := by
    intro hne
    obtain ⟨char, rest, rfl⟩ := List.exists_cons_of_ne_nil hne
    exact congrArg some (hslashes char (List.mem_cons_self ..))
  have hempty : ∀ segment ∈ splitChars '/' tail, segment = [] := by
    intro segment hsegment
    refine List.eq_nil_iff_forall_not_mem.mpr fun char hchar ↦ not_mem_splitChars hsegment ?_
    have hmem : char ∈ joinChars '/' (splitChars '/' tail) :=
      mem_joinChars_of_mem hsegment hchar
    rw [joinChars_splitChars] at hmem
    exact hslashes char hmem ▸ hchar
  have hsame : maskTeamsTokens (splitChars '/' tail).tail = (splitChars '/' tail).tail :=
    maskTeamsTokens_of_not fun segment hsegment ↦ by
      rw [hempty segment (List.mem_of_mem_tail hsegment)]
      decide
  rw [teamsBack, hsame, ← splitChars_of_head? hhead, joinChars_splitChars]

theorem maskTeamsTokens_ne_nil {segments : List (List Char)} (hne : segments ≠ []) :
    maskTeamsTokens segments ≠ [] := by
  induction segments using maskTeamsTokens.induct with
  | case1 hook first second rest hhook ih =>
    rw [maskTeamsTokens, if_pos hhook]
    exact List.cons_ne_nil _ _
  | case2 hook first second rest hhook ih =>
    rw [maskTeamsTokens, if_neg hhook]
    exact List.cons_ne_nil _ _
  | case3 segments hother =>
    rw [maskTeamsTokens]
    · exact hne
    · exact hother

/-- What is left behind the tokens starts with a slash, unless nothing stands there. -/
theorem head?_teamsBack {tail : List Char} (hne : tail ≠ []) (hhead : tail.head? = some '/') :
    ∃ back, teamsBack tail = '/' :: back := by
  obtain ⟨char, rest, rfl⟩ := List.exists_cons_of_ne_nil hne
  obtain rfl := Option.some.inj hhead
  have htail : (splitChars '/' ('/' :: rest)).tail = splitChars '/' rest := rfl
  have hmasked := maskTeamsTokens_ne_nil (splitChars_ne_nil '/' rest)
  obtain ⟨next, others, hnext⟩ := List.exists_cons_of_ne_nil hmasked
  rw [teamsBack, htail, hnext]
  exact ⟨_, rfl⟩

section Teams

variable {front hook further : List Char} {first second : Secrets}

/-- The masked path of Teams, taken for one, with its parameters. -/
def teamsMasked (front hook further token : List Char) : List Char :=
  front ++ '/' :: hook ++
      '/' :: (bullets 12 ++ '/' :: (bullets 12 ++ teamsBack (splitParams further).1)) ++
    markedPart ';' (pathParams further token)

theorem not_mem_bullets {char : Char} (hchar : char ≠ '•') (count : ℕ) : char ∉ bullets count :=
  fun hmem ↦ hchar (List.eq_of_mem_replicate hmem)

theorem bullets_ne_markedPart (count : ℕ) (front params : List Char) :
    bullets (count + 1) ++ front ≠ markedPart ';' params := by
  rw [bullets, List.replicate_succ, markedPart]
  split_ifs
  · exact List.cons_ne_nil _ _
  · exact fun hsame ↦ absurd (List.cons.inj hsame).1 (by decide)

/-- The masks of two paths of which only one is taken for a path of Teams differ. -/
theorem lastMasked_ne_teamsMasked {lead token other : List Char}
    (hlead : '/' ∈ lead.dropWhile (· = '/')) (htoken : pathToken further token ≠ [] ∧ '/' ∉ token)
    (hslashes : ∀ char ∈ (splitParams further).1, char = '/') (hother : '/' ∉ other) :
    lastMasked lead further token ≠ teamsMasked front hook further other := by
  intro hsame
  have hparams : ∀ token : List Char, '/' ∉ token →
      '/' ∉ markedPart ';' (pathParams further token) := by
    intro token htoken
    rw [mem_markedPart (by decide), pathParams]
    split_ifs
    · exact fun hslash ↦ htoken
        ((List.dropWhile_suffix _).subset (List.mem_of_mem_tail hslash))
    · exact not_mem_splitParams_snd further
  have hbullets : ∀ count token, '/' ∉ token →
      '/' ∉ bullets count ++ markedPart ';' (pathParams further token) := by
    intro count token htoken hslash
    rcases List.mem_append.mp hslash with hbullet | hmarked
    · exact not_mem_bullets (by decide) count hbullet
    · exact hparams token htoken hmarked
  rw [lastMasked, maskLastSegment_append hlead htoken.1 (not_mem_pathToken htoken.2) hslashes,
    teamsMasked, teamsBack_of_slashes hslashes] at hsame
  generalize (splitParams further).1 = tail at hsame hslashes
  have hfirst : lastSegment ('/' :: (lead.dropWhile (· = '/') ++ '/' :: bullets 8) ++
      markedPart ';' (pathParams further token)) =
      bullets 8 ++ markedPart ';' (pathParams further token) := by
    rw [List.cons_append, List.append_assoc, List.cons_append, ← List.cons_append]
    exact lastSegment_append (hbullets 8 token htoken.2)
  rw [hsame] at hfirst
  rcases List.eq_nil_or_concat tail with rfl | ⟨init, last, rfl⟩
  · have hsecond : lastSegment ((front ++ '/' :: hook ++ '/' :: bullets 12) ++
        '/' :: (bullets 12 ++ markedPart ';' (pathParams further other))) =
        bullets 8 ++ markedPart ';' (pathParams further token) := by
      simpa only [List.append_assoc, List.cons_append, List.nil_append] using hfirst
    rw [lastSegment_append (hbullets 12 other hother),
      show bullets 12 = bullets 8 ++ bullets 4 from rfl, List.append_assoc] at hsecond
    exact bullets_ne_markedPart 3 _ _ (List.append_cancel_left hsecond)
  · obtain rfl := hslashes last (by simp)
    have hsecond : lastSegment ((front ++ '/' :: hook ++
        '/' :: (bullets 12 ++ '/' :: (bullets 12 ++ init))) ++
          '/' :: markedPart ';' (pathParams further other)) =
        bullets 8 ++ markedPart ';' (pathParams further token) := by
      simpa only [List.append_assoc, List.cons_append, List.nil_append, List.concat_eq_append]
        using hfirst
    rw [lastSegment_append (hparams other hother)] at hsecond
    exact bullets_ne_markedPart 7 _ _ hsecond.symm

/-- Where another segment is masked in place of the tokens, the masks can only be the same if the
tokens are bullets. -/
theorem eq_bullets_of_lastMasked_eq {first token other : List Char}
    (hbase : (front ++ '/' :: hook).dropWhile (· = '/') ≠ [])
    (hfurther : further ≠ [] → further.head? = some '/')
    (hslashes : ¬ ∀ char ∈ (splitParams further).1, char = '/')
    (hfirst : '/' ∉ first) (htoken : '/' ∉ token)
    (hsame : lastMasked (front ++ '/' :: hook ++ '/' :: first) further token =
      teamsMasked front hook further other) :
    first = bullets 12 ∧ pathToken further token = bullets 12 := by
  have htail : (splitParams further).1 ≠ [] := by
    intro hnil
    rw [hnil] at hslashes
    exact hslashes fun char hchar ↦ absurd hchar List.not_mem_nil
  have hlead := dropWhile_slash_append hbase ('/' :: first)
  have hslash : '/' ∈ (front ++ '/' :: hook ++ '/' :: first).dropWhile (· = '/') :=
    hlead ▸ List.mem_append_right _ (List.mem_cons_self ..)
  obtain ⟨back, hback⟩ := exists_maskLastSegment_token (head?_splitParams hfurther) hslashes
  obtain ⟨behind, hbehind⟩ := head?_teamsBack htail (head?_splitParams hfurther htail)
  rw [lastMasked, hback _ _ hslash, teamsMasked, hbehind, hlead] at hsame
  have hparts : '/' :: ((front ++ '/' :: hook).dropWhile (· = '/') ++ '/' :: (first ++
        '/' :: (pathToken further token ++
          '/' :: (back ++ markedPart ';' (pathParams further token))))) =
      front ++ '/' :: hook ++ '/' :: (bullets 12 ++
        '/' :: (bullets 12 ++ '/' :: (behind ++ markedPart ';' (pathParams further other)))) := by
    simpa only [List.append_assoc, List.cons_append] using hsame
  have hdrop := congrArg (List.dropWhile (· = '/')) hparts
  have hagain : ((front ++ '/' :: hook).dropWhile (· = '/')).dropWhile (· = '/') ≠ [] := by
    rwa [List.dropWhile_idempotent]
  rw [List.dropWhile_cons_of_pos (by decide), dropWhile_slash_append hagain,
    List.dropWhile_idempotent, dropWhile_slash_append hbase, List.append_cancel_left_eq] at hdrop
  have hplain := not_mem_bullets (by decide : '/' ≠ '•') 12
  obtain ⟨hfirstSame, hrest⟩ := (append_cons_inj hfirst hplain _ _).mp (List.cons.inj hdrop).2
  exact ⟨hfirstSame, ((append_cons_inj (not_mem_pathToken htoken) hplain _ _).mp hrest).1⟩

theorem masksLastSegment_iff (path : List Char) :
    masksLastSegment path = true ↔ discordMark <:+: path ∨ slackMark <:+: path :=
  decide_eq_true_iff

/-- A path with bullets for its tokens is taken for one of another provider only if every path with
the same text around the tokens is. -/
theorem masksLastSegment_of_bullets {base tail : List Char}
    (hmark : masksLastSegment (base ++ '/' :: bullets 12 ++ '/' :: (bullets 12 ++ tail)) = true)
    (first token : List Char) :
    masksLastSegment (base ++ '/' :: first ++ '/' :: (token ++ tail)) = true := by
  rw [masksLastSegment_iff] at hmark ⊢
  exact hmark.imp
    (fun hdiscord ↦ infix_tokens_of_bullets (by decide) (by decide) hdiscord first token)
    (fun hslack ↦ infix_tokens_of_bullets (by decide) (by decide) hslack first token)

end Teams

/-- The masked path and its parameters. -/
def PathShape.masked (secrets : Secrets) (shape : PathShape) : List Char :=
  maskPath (splitParams (shape.text secrets)).1 ++
    markedPart ';' (splitParams (shape.text secrets)).2

section Shapes

variable {front further : List Char} {provider : Provider} {secrets first second : Secrets}

theorem splitParams_webhook
    (hcarries : (PathShape.webhook front provider further).Carries secrets) :
    splitParams ((PathShape.webhook front provider further).text secrets) =
      (provider.lead front secrets ++
          '/' :: (pathToken further secrets.token ++ (splitParams further).1),
        pathParams further secrets.token) :=
  splitParams_token hcarries.2.1 hcarries.1

/-- The mask of a path of which the last segment is masked. -/
theorem masked_of_masksLastSegment
    (hcarries : (PathShape.webhook front provider further).Carries secrets)
    (hmark : masksLastSegment
      (splitParams ((PathShape.webhook front provider further).text secrets)).1 = true) :
    (PathShape.webhook front provider further).masked secrets =
      lastMasked (provider.lead front secrets) further secrets.token := by
  rw [PathShape.masked, maskPath_of_mark ((masksLastSegment_iff _).mp hmark),
    splitParams_webhook hcarries, lastMasked]

/-- In front of the last token stands a segment and a slash. -/
theorem mem_dropWhile_lead
    (hcarries : (PathShape.webhook front provider further).Carries secrets) :
    '/' ∈ (provider.lead front secrets).dropWhile (· = '/') := by
  cases provider with
  | discord id =>
    have hlead : front ++ discordMark ++ id =
        (front ++ ['/']) ++ 'a' :: ("pi/webhooks/".toList ++ id) := by
      rw [List.append_assoc, List.append_assoc]
      rfl
    rw [Provider.lead, hlead]
    exact mem_dropWhile_slash (by decide) (List.mem_append_left _ (by decide)) _
  | slack team bot =>
    have hlead : front ++ slackMark ++ team ++ "/B".toList ++ bot =
        (front ++ ['/']) ++ 's' :: ("ervices/T".toList ++ (team ++ ("/B".toList ++ bot))) := by
      simp only [List.append_assoc]
      rfl
    rw [Provider.lead, hlead]
    exact mem_dropWhile_slash (by decide) (List.mem_append_left _ (by decide)) _
  | teams hook =>
    obtain ⟨hhook, -, -, -⟩ := hcarries.2.2.2
    cases hook with
    | nil => exact absurd hhook (by decide)
    | cons char hook =>
      have hlead : front ++ '/' :: char :: hook ++ '/' :: secrets.firstToken =
          (front ++ ['/']) ++ char :: (hook ++ '/' :: secrets.firstToken) := by
        simp only [List.append_assoc, List.cons_append, List.nil_append]
      have hchar : char ≠ '/' := by
        rintro rfl
        exact not_mem_of_isIncomingWebhook hhook (List.mem_cons_self ..)
      rw [Provider.lead, hlead]
      exact mem_dropWhile_slash hchar (List.mem_append_right _ (List.mem_cons_self ..)) _

/-- The tokens of a path whose last segment is masked. -/
theorem masked_eq_iff_of_lead
    (hfirst : (PathShape.webhook front provider further).Carries first)
    (hsecond : (PathShape.webhook front provider further).Carries second)
    (hlead : provider.lead front first = provider.lead front second)
    (hfirstMark : masksLastSegment
      (splitParams ((PathShape.webhook front provider further).text first)).1 = true)
    (hsecondMark : masksLastSegment
      (splitParams ((PathShape.webhook front provider further).text second)).1 = true) :
    (PathShape.webhook front provider further).masked first =
        (PathShape.webhook front provider further).masked second ↔
      shownToken further first.token = shownToken further second.token := by
  rw [masked_of_masksLastSegment hfirst hfirstMark,
    masked_of_masksLastSegment hsecond hsecondMark, ← hlead]
  exact lastMasked_eq_iff (mem_dropWhile_lead hfirst) hfirst.1 ⟨hfirst.2.2.1, hfirst.2.1⟩
    ⟨hsecond.2.2.1, hsecond.2.1⟩

theorem masksLastSegment_discord {id : List Char}
    (hcarries : (PathShape.webhook front (.discord id) further).Carries secrets) :
    masksLastSegment
      (splitParams ((PathShape.webhook front (.discord id) further).text secrets)).1 = true := by
  rw [splitParams_webhook hcarries, masksLastSegment_iff, Provider.lead]
  refine Or.inl ⟨front,
    id ++ '/' :: (pathToken further secrets.token ++ (splitParams further).1), ?_⟩
  simp only [List.append_assoc]

theorem masksLastSegment_slack {team bot : List Char}
    (hcarries : (PathShape.webhook front (.slack team bot) further).Carries secrets) :
    masksLastSegment (splitParams
      ((PathShape.webhook front (.slack team bot) further).text secrets)).1 = true := by
  rw [splitParams_webhook hcarries, masksLastSegment_iff, Provider.lead]
  refine Or.inr ⟨front, team ++ ("/B".toList ++ (bot ++
    '/' :: (pathToken further secrets.token ++ (splitParams further).1))), ?_⟩
  simp only [List.append_assoc]

section TeamsShape

variable {hook : List Char}

theorem dropWhile_base_ne_nil (hhook : isIncomingWebhook hook = true) :
    (front ++ '/' :: hook).dropWhile (· = '/') ≠ [] := by
  intro hnil
  cases hook with
  | nil => exact absurd hhook (by decide)
  | cons char hook =>
    have hall := List.dropWhile_eq_nil_iff.mp hnil char (by simp)
    exact not_mem_of_isIncomingWebhook hhook (of_decide_eq_true hall ▸ List.mem_cons_self ..)

/-- The mask of a path of Teams that is taken for one. -/
theorem masked_teams (hcarries : (PathShape.webhook front (.teams hook) further).Carries secrets)
    (habsolute : ((PathShape.webhook front (.teams hook) further).text secrets).head? = some '/')
    (hmark : masksLastSegment
      (splitParams ((PathShape.webhook front (.teams hook) further).text secrets)).1 = false) :
    (PathShape.webhook front (.teams hook) further).masked secrets =
      teamsMasked front hook further secrets.token := by
  have hsplit := splitParams_webhook hcarries
  obtain ⟨hfurther, htoken, hpath, hhook, hfront, hfirst⟩ := hcarries
  have hplain := (masksLastSegment_iff _).not.mp (Bool.eq_false_iff.mp hmark)
  have hfrontHead : front ≠ [] → front.head? = some '/' := by
    intro hne
    rw [PathShape.text, Provider.lead, List.append_assoc, List.append_assoc,
      List.head?_append_of_ne_nil _ hne] at habsolute
    exact habsolute
  rw [hsplit, Provider.lead] at hplain
  rw [PathShape.masked, hsplit, Provider.lead, maskPath_teams hplain hfrontHead hfront hhook hfirst
    ⟨hpath, not_mem_pathToken htoken⟩ (head?_splitParams hfurther), teamsMasked]

/-- The masks of two paths of Teams of which only the first is taken for one of another provider. -/
theorem masked_teams_ne (hfirst : (PathShape.webhook front (.teams hook) further).Carries first)
    (hsecond : (PathShape.webhook front (.teams hook) further).Carries second)
    (habsolute : ((PathShape.webhook front (.teams hook) further).text second).head? = some '/')
    (hfirstMark : masksLastSegment
      (splitParams ((PathShape.webhook front (.teams hook) further).text first)).1 = true)
    (hsecondMark : masksLastSegment
      (splitParams ((PathShape.webhook front (.teams hook) further).text second)).1 = false) :
    (PathShape.webhook front (.teams hook) further).masked first ≠
      (PathShape.webhook front (.teams hook) further).masked second := by
  rw [masked_of_masksLastSegment hfirst hfirstMark, masked_teams hsecond habsolute hsecondMark]
  intro hsame
  have hlead := mem_dropWhile_lead hfirst
  rw [splitParams_webhook hfirst] at hfirstMark
  rw [splitParams_webhook hsecond] at hsecondMark
  obtain ⟨hfurther, htoken, hpath, hhook, hfront, hfirstToken⟩ := hfirst
  by_cases hslashes : ∀ char ∈ (splitParams further).1, char = '/'
  · exact lastMasked_ne_teamsMasked hlead ⟨hpath, htoken⟩ hslashes hsecond.2.1 hsame
  · obtain ⟨hbullets, hpathBullets⟩ := eq_bullets_of_lastMasked_eq (dropWhile_base_ne_nil hhook)
      hfurther hslashes hfirstToken.2 htoken hsame
    rw [Provider.lead, hbullets, hpathBullets] at hfirstMark
    have hboth := masksLastSegment_of_bullets hfirstMark second.firstToken
      (pathToken further second.token)
    exact Bool.false_ne_true (hsecondMark.symm.trans hboth)

/-- The first token is shown where the last segment is masked. -/
theorem firstToken_eq_of_masked_eq
    (hfirst : (PathShape.webhook front (.teams hook) further).Carries first)
    (hsecond : (PathShape.webhook front (.teams hook) further).Carries second)
    (hfirstMark : masksLastSegment
      (splitParams ((PathShape.webhook front (.teams hook) further).text first)).1 = true)
    (hsecondMark : masksLastSegment
      (splitParams ((PathShape.webhook front (.teams hook) further).text second)).1 = true)
    (hsame : (PathShape.webhook front (.teams hook) further).masked first =
      (PathShape.webhook front (.teams hook) further).masked second) :
    first.firstToken = second.firstToken := by
  rw [masked_of_masksLastSegment hfirst hfirstMark,
    masked_of_masksLastSegment hsecond hsecondMark] at hsame
  obtain ⟨back, hback⟩ := exists_lastMasked_eq (mem_dropWhile_lead hfirst) hfirst.1
    ⟨hfirst.2.2.1, hfirst.2.1⟩
  obtain ⟨behind, hbehind⟩ := exists_lastMasked_eq (mem_dropWhile_lead hsecond) hsecond.1
    ⟨hsecond.2.2.1, hsecond.2.1⟩
  obtain ⟨-, -, -, hhook, -, -, hfirstSlash⟩ := hfirst
  obtain ⟨-, -, -, -, -, -, hsecondSlash⟩ := hsecond
  have hbase : (front ++ '/' :: hook).dropWhile (· = '/') ≠ [] := dropWhile_base_ne_nil hhook
  rw [hback, hbehind, Provider.lead, Provider.lead, dropWhile_slash_append hbase,
    dropWhile_slash_append hbase, List.append_assoc, List.append_assoc, List.cons_append,
    List.cons_append, List.cons_inj_right, List.append_cancel_left_eq, List.cons_inj_right,
    append_cons_inj hfirstSlash hsecondSlash] at hsame
  exact hsame.1

end TeamsShape

/-- A masked path starts with a slash. -/
theorem exists_masked_eq (hcarries : (PathShape.webhook front provider further).Carries secrets)
    (habsolute : ((PathShape.webhook front provider further).text secrets).head? = some '/') :
    ∃ rest, (PathShape.webhook front provider further).masked secrets = '/' :: rest := by
  cases hmark : masksLastSegment
      (splitParams ((PathShape.webhook front provider further).text secrets)).1 with
  | true =>
    rw [masked_of_masksLastSegment hcarries hmark]
    obtain ⟨back, hback⟩ := exists_lastMasked_eq (mem_dropWhile_lead hcarries) hcarries.1
      ⟨hcarries.2.2.1, hcarries.2.1⟩
    exact ⟨_, hback⟩
  | false =>
    cases provider with
    | discord id => exact absurd (masksLastSegment_discord hcarries) (Bool.eq_false_iff.mp hmark)
    | slack team bot => exact absurd (masksLastSegment_slack hcarries) (Bool.eq_false_iff.mp hmark)
    | teams hook =>
      rw [masked_teams hcarries habsolute hmark, teamsMasked]
      cases front with
      | nil => exact ⟨_, rfl⟩
      | cons char front =>
        obtain rfl := Option.some.inj habsolute
        exact ⟨_, rfl⟩

end Shapes

/-- Two paths are masked alike exactly if the same is shown of their tokens. -/
theorem PathShape.masked_eq_iff {shape : PathShape} {first second : Secrets}
    (hfirst : shape.Carries first) (hsecond : shape.Carries second)
    (hfirstHead : shape.text first ≠ [] → (shape.text first).head? = some '/')
    (hsecondHead : shape.text second ≠ [] → (shape.text second).head? = some '/') :
    shape.masked first = shape.masked second ↔ shape.shown first = shape.shown second := by
  cases shape with
  | plain path => exact iff_of_true rfl rfl
  | webhook front provider further =>
    have hfirstAbsolute := hfirstHead (by simp [PathShape.text])
    have hsecondAbsolute := hsecondHead (by simp [PathShape.text])
    cases provider with
    | discord id =>
      rw [masked_eq_iff_of_lead hfirst hsecond rfl (masksLastSegment_discord hfirst)
        (masksLastSegment_discord hsecond)]
      simp only [PathShape.shown, Prod.mk.injEq, true_and]
    | slack team bot =>
      rw [masked_eq_iff_of_lead hfirst hsecond rfl (masksLastSegment_slack hfirst)
        (masksLastSegment_slack hsecond)]
      simp only [PathShape.shown, Prod.mk.injEq, true_and]
    | teams hook =>
      cases hfirstMark : masksLastSegment
          (splitParams ((PathShape.webhook front (.teams hook) further).text first)).1 with
      | true =>
        cases hsecondMark : masksLastSegment
            (splitParams ((PathShape.webhook front (.teams hook) further).text second)).1 with
        | true =>
          simp only [PathShape.shown, hfirstMark, hsecondMark, if_true, Prod.mk.injEq,
            Option.some_inj]
          by_cases hsame : first.firstToken = second.firstToken
          · have hlead : (Provider.teams hook).lead front first =
                (Provider.teams hook).lead front second := by
              rw [Provider.lead, Provider.lead, hsame]
            rw [masked_eq_iff_of_lead hfirst hsecond hlead hfirstMark hsecondMark,
              and_iff_right hsame]
          · exact iff_of_false (fun hmasked ↦ hsame (firstToken_eq_of_masked_eq hfirst hsecond
              hfirstMark hsecondMark hmasked)) fun h ↦ hsame h.1
        | false =>
          refine iff_of_false (masked_teams_ne hfirst hsecond hsecondAbsolute hfirstMark
            hsecondMark) ?_
          simp [PathShape.shown, hfirstMark, hsecondMark]
      | false =>
        cases hsecondMark : masksLastSegment
            (splitParams ((PathShape.webhook front (.teams hook) further).text second)).1 with
        | true =>
          refine iff_of_false (masked_teams_ne hsecond hfirst hfirstAbsolute hsecondMark
            hfirstMark).symm ?_
          simp [PathShape.shown, hfirstMark, hsecondMark]
        | false =>
          rw [masked_teams hfirst hfirstAbsolute hfirstMark,
            masked_teams hsecond hsecondAbsolute hsecondMark, teamsMasked, teamsMasked,
            List.append_cancel_left_eq, markedPart_inj, pathParams, pathParams]
          simp only [PathShape.shown, hfirstMark, hsecondMark, Bool.false_eq_true, if_false,
            Prod.mk.injEq, true_and]
          split_ifs
          · rfl
          · exact iff_of_true rfl rfl

end Lnmp.Alerts
