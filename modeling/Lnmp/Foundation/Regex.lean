import Mathlib.Computability.Language

/-!
# Regular expressions

The expressions of Python's `re` that are built from sets of characters, sequences, alternatives,
greedy repetitions, groups and the end of the text. `tries` lists the ways in which an expression
can match the front of a text, in the order in which the backtracking matcher tries them: the first
alternative before the second, a further repetition before none. A match is the first way. A
repetition that takes no character ends the loop.

`mem_language_of_mem_tries` says that what is taken is a word of the expression's language. The
lemmas about `matchAt?` follow the matcher along a text on which it need not backtrack.
-/

set_option autoImplicit false
set_option relaxedAutoImplicit false

namespace Lnmp.Foundation

/-! ### The matcher -/

/-- An expression. `orElse` is `A|B`, `atEnd` is `$`. -/
inductive Regex
  | empty
  | set (accepts : Char → Bool)
  | seq (first second : Regex)
  | orElse (first second : Regex)
  | star (item : Regex)
  | group (index : ℕ) (item : Regex)
  | atEnd

namespace Regex

/-- A way to match the front of a text: what the groups took, and the text behind. -/
structure Attempt where
  groups : List (ℕ × List Char)
  rest : List Char
  deriving DecidableEq

/-- An attempt that goes on behind another one. -/
def Attempt.behind (first second : Attempt) : Attempt :=
  ⟨first.groups ++ second.groups, second.rest⟩

/-- What a group took the last time. -/
def Attempt.group? (attempt : Attempt) (index : ℕ) : Option (List Char) :=
  attempt.groups.reverse.lookup index

/-- The ways to repeat an item, as often as the fuel allows. -/
def repeated (once : List Char → List Attempt) : ℕ → List Char → List Attempt
  | 0, text => [⟨[], text⟩]
  | fuel + 1, text =>
    ((once text).filter (·.rest.length < text.length)).flatMap (fun attempt ↦
      (repeated once fuel attempt.rest).map attempt.behind) ++ [⟨[], text⟩]

/-- The ways to match the front of a text, in the order in which they are tried. -/
def tries : Regex → List Char → List Attempt
  | .empty, text => [⟨[], text⟩]
  | .set _, [] => []
  | .set accepts, char :: rest => if accepts char then [⟨[], rest⟩] else []
  | .seq first second, text =>
    (first.tries text).flatMap fun attempt ↦ (second.tries attempt.rest).map attempt.behind
  | .orElse first second, text => first.tries text ++ second.tries text
  | .star item, text => repeated item.tries text.length text
  | .group index item, text =>
    (item.tries text).map fun attempt ↦
      ⟨attempt.groups ++ [(index, text.take (text.length - attempt.rest.length))], attempt.rest⟩
  | .atEnd, text => if text = [] ∨ text = ['\n'] then [⟨[], text⟩] else []

/-- `A+`. -/
def plus (item : Regex) : Regex := .seq item (.star item)

/-- `A?`. -/
def optional (item : Regex) : Regex := .orElse item .empty

/-- `A{count}`. -/
def times (item : Regex) : ℕ → Regex
  | 0 => .empty
  | count + 1 => .seq item (times item count)

/-- `A{0,count}`. -/
def atMost (item : Regex) : ℕ → Regex
  | 0 => .empty
  | count + 1 => optional (.seq item (atMost item count))

/-- The characters themselves. -/
def literal : List Char → Regex
  | [] => .empty
  | char :: rest => .seq (.set (· = char)) (literal rest)

/-- `re.match`. -/
def matchAt? (regex : Regex) (text : List Char) : Option Attempt := (regex.tries text).head?

/-- `re.search`. -/
def search? (regex : Regex) : List Char → Option Attempt
  | [] => regex.matchAt? []
  | char :: rest =>
    match regex.matchAt? (char :: rest) with
    | some attempt => some attempt
    | none => search? regex rest

/-- The matches behind the next characters, which belong to the last match. -/
def matchesBehind (regex : Regex) : ℕ → List Char → List Attempt
  | _, [] => []
  | skipped + 1, _ :: rest => matchesBehind regex skipped rest
  | 0, char :: rest =>
    match regex.matchAt? (char :: rest) with
    | some attempt => attempt :: matchesBehind regex (rest.length - attempt.rest.length) rest
    | none => matchesBehind regex 0 rest

/-- The matches of `re.finditer`, for an expression that takes some character. -/
def findAll (regex : Regex) (text : List Char) : List Attempt := matchesBehind regex 0 text

/-! ### The language -/

/-- The words that an expression takes. -/
def language : Regex → Language Char
  | .empty => 1
  | .set accepts => {word | ∃ char, accepts char = true ∧ word = [char]}
  | .seq first second => first.language * second.language
  | .orElse first second => first.language + second.language
  | .star item => KStar.kstar item.language
  | .group _ item => item.language
  | .atEnd => 1

/-- What a repetition takes is a word of the starred language. -/
theorem exists_append_of_mem_repeated {once : List Char → List Attempt} {words : Language Char}
    (honce : ∀ text, ∀ attempt ∈ once text, ∃ word ∈ words, word ++ attempt.rest = text)
    {fuel : ℕ} {text : List Char} {attempt : Attempt} (hmem : attempt ∈ repeated once fuel text) :
    ∃ word ∈ KStar.kstar words, word ++ attempt.rest = text := by
  induction fuel generalizing text attempt with
  | zero =>
    rw [repeated, List.mem_singleton] at hmem
    exact ⟨[], Language.nil_mem_kstar words, by rw [hmem, List.nil_append]⟩
  | succ fuel ih =>
    rw [repeated, List.mem_append, List.mem_flatMap, List.mem_singleton] at hmem
    rcases hmem with ⟨first, hfirst, hmem⟩ | rfl
    · obtain ⟨others, hothers, rfl⟩ := List.mem_map.mp hmem
      obtain ⟨word, hword, hfront⟩ := honce text first (List.mem_of_mem_filter hfirst)
      obtain ⟨more, hmore, hrest⟩ := ih hothers
      refine ⟨word ++ more, ?_, ?_⟩
      · rw [← Language.one_add_self_mul_kstar_eq_kstar]
        exact Or.inr (Language.mem_mul.mpr ⟨word, hword, more, hmore, rfl⟩)
      · rw [List.append_assoc, Attempt.behind, hrest, hfront]
    · exact ⟨[], Language.nil_mem_kstar words, rfl⟩

/-- What is taken is a word of the language, and the rest is behind it. -/
theorem mem_language_of_mem_tries {regex : Regex} {text : List Char} {attempt : Attempt}
    (hmem : attempt ∈ regex.tries text) :
    ∃ word ∈ regex.language, word ++ attempt.rest = text := by
  induction regex generalizing text attempt with
  | empty =>
    rw [tries, List.mem_singleton] at hmem
    exact ⟨[], rfl, by rw [hmem, List.nil_append]⟩
  | set accepts =>
    cases text with
    | nil => exact absurd hmem List.not_mem_nil
    | cons char rest =>
      rw [tries] at hmem
      split_ifs at hmem with haccepts
      · rw [List.mem_singleton] at hmem
        exact ⟨[char], ⟨char, haccepts, rfl⟩, by rw [hmem, List.singleton_append]⟩
      · exact absurd hmem List.not_mem_nil
  | seq first second ihFirst ihSecond =>
    obtain ⟨front, hfront, hmem⟩ := List.mem_flatMap.mp hmem
    obtain ⟨back, hback, rfl⟩ := List.mem_map.mp hmem
    obtain ⟨word, hword, rfl⟩ := ihFirst hfront
    obtain ⟨more, hmore, hrest⟩ := ihSecond hback
    exact ⟨word ++ more, Language.mem_mul.mpr ⟨word, hword, more, hmore, rfl⟩, by
      rw [List.append_assoc, Attempt.behind, hrest]⟩
  | orElse first second ihFirst ihSecond =>
    rcases List.mem_append.mp hmem with hmem | hmem
    · obtain ⟨word, hword, htext⟩ := ihFirst hmem
      exact ⟨word, Or.inl hword, htext⟩
    · obtain ⟨word, hword, htext⟩ := ihSecond hmem
      exact ⟨word, Or.inr hword, htext⟩
  | star item ih => exact exists_append_of_mem_repeated (fun _ _ honce ↦ ih honce) hmem
  | group index item ih =>
    obtain ⟨inner, hinner, rfl⟩ := List.mem_map.mp hmem
    obtain ⟨word, hword, htext⟩ := ih hinner
    exact ⟨word, hword, htext⟩
  | atEnd =>
    rw [tries] at hmem
    split_ifs at hmem with hend
    · rw [List.mem_singleton] at hmem
      exact ⟨[], rfl, by rw [hmem, List.nil_append]⟩
    · exact absurd hmem List.not_mem_nil

/-- A text that starts with no word of the language is not matched. -/
theorem matchAt?_eq_none {regex : Regex} {text : List Char}
    (hnone : ∀ word ∈ regex.language, ∀ rest, word ++ rest ≠ text) : regex.matchAt? text = none := by
  rw [matchAt?, List.head?_eq_none_iff, List.eq_nil_iff_forall_not_mem]
  intro attempt hmem
  obtain ⟨word, hword, htext⟩ := mem_language_of_mem_tries hmem
  exact hnone word hword attempt.rest htext

/-- The words that the groups with an index take. -/
def groupLanguage (index : ℕ) : Regex → Language Char
  | .empty => 0
  | .set _ => 0
  | .seq first second => first.groupLanguage index + second.groupLanguage index
  | .orElse first second => first.groupLanguage index + second.groupLanguage index
  | .star item => item.groupLanguage index
  | .group place item =>
    {word | (place = index ∧ word ∈ item.language) ∨ word ∈ item.groupLanguage index}
  | .atEnd => 0

/-- The indices of the groups in an expression. -/
def indices : Regex → List ℕ
  | .empty => []
  | .set _ => []
  | .seq first second => first.indices ++ second.indices
  | .orElse first second => first.indices ++ second.indices
  | .star item => item.indices
  | .group place item => place :: item.indices
  | .atEnd => []

/-- A group that the expression has not takes nothing. -/
theorem notMem_groupLanguage {regex : Regex} {index : ℕ} (hindex : index ∉ regex.indices)
    (word : List Char) : word ∉ regex.groupLanguage index := by
  induction regex with
  | empty => exact id
  | set accepts => exact id
  | seq first second ihFirst ihSecond =>
    rw [indices, List.mem_append, not_or] at hindex
    exact not_or.mpr ⟨ihFirst hindex.1, ihSecond hindex.2⟩
  | orElse first second ihFirst ihSecond =>
    rw [indices, List.mem_append, not_or] at hindex
    exact not_or.mpr ⟨ihFirst hindex.1, ihSecond hindex.2⟩
  | star item ih => exact ih hindex
  | group place item ih =>
    rw [indices, List.mem_cons, not_or] at hindex
    exact not_or.mpr ⟨fun hgroup ↦ hindex.1 hgroup.1.symm, ih hindex.2⟩
  | atEnd => exact id

/-- The groups of a repetition are those of its items. -/
theorem exists_mem_of_mem_repeated {once : List Char → List Attempt} {fuel : ℕ} {text : List Char}
    {attempt : Attempt} (hmem : attempt ∈ repeated once fuel text) {taken : ℕ × List Char}
    (htaken : taken ∈ attempt.groups) : ∃ text, ∃ single ∈ once text, taken ∈ single.groups := by
  induction fuel generalizing text attempt with
  | zero =>
    rw [repeated, List.mem_singleton] at hmem
    rw [hmem] at htaken
    exact absurd htaken List.not_mem_nil
  | succ fuel ih =>
    rw [repeated, List.mem_append, List.mem_flatMap, List.mem_singleton] at hmem
    rcases hmem with ⟨first, hfirst, hmem⟩ | rfl
    · obtain ⟨others, hothers, rfl⟩ := List.mem_map.mp hmem
      rcases List.mem_append.mp htaken with htaken | htaken
      · exact ⟨text, first, List.mem_of_mem_filter hfirst, htaken⟩
      · exact ih hothers htaken
    · exact absurd htaken List.not_mem_nil

/-- What a group takes is a word of its language. -/
theorem mem_groupLanguage_of_mem_tries {regex : Regex} {text word : List Char} {attempt : Attempt}
    {index : ℕ} (hmem : attempt ∈ regex.tries text) (htaken : (index, word) ∈ attempt.groups) :
    word ∈ regex.groupLanguage index := by
  induction regex generalizing text attempt with
  | empty =>
    rw [tries, List.mem_singleton] at hmem
    rw [hmem] at htaken
    exact absurd htaken List.not_mem_nil
  | set accepts =>
    cases text with
    | nil => exact absurd hmem List.not_mem_nil
    | cons char rest =>
      rw [tries] at hmem
      split_ifs at hmem
      · rw [List.mem_singleton] at hmem
        rw [hmem] at htaken
        exact absurd htaken List.not_mem_nil
      · exact absurd hmem List.not_mem_nil
  | seq first second ihFirst ihSecond =>
    obtain ⟨front, hfront, hmem⟩ := List.mem_flatMap.mp hmem
    obtain ⟨back, hback, rfl⟩ := List.mem_map.mp hmem
    exact (List.mem_append.mp htaken).imp (ihFirst hfront) (ihSecond hback)
  | orElse first second ihFirst ihSecond =>
    exact (List.mem_append.mp hmem).imp (ihFirst · htaken) (ihSecond · htaken)
  | star item ih =>
    obtain ⟨front, single, hsingle, htaken⟩ := exists_mem_of_mem_repeated hmem htaken
    exact ih hsingle htaken
  | group place item ih =>
    obtain ⟨inner, hinner, rfl⟩ := List.mem_map.mp hmem
    rcases List.mem_append.mp htaken with htaken | htaken
    · exact Or.inr (ih hinner htaken)
    · obtain ⟨rfl, rfl⟩ := Prod.mk.inj (List.mem_singleton.mp htaken)
      obtain ⟨taken, hword, rfl⟩ := mem_language_of_mem_tries hinner
      rw [List.length_append, Nat.add_sub_cancel, List.take_left' rfl]
      exact Or.inl ⟨rfl, hword⟩
  | atEnd =>
    rw [tries] at hmem
    split_ifs at hmem
    · rw [List.mem_singleton] at hmem
      rw [hmem] at htaken
      exact absurd htaken List.not_mem_nil
    · exact absurd hmem List.not_mem_nil

theorem mem_groupLanguage_of_matchAt? {regex : Regex} {text word : List Char} {attempt : Attempt}
    {index : ℕ} (hmatch : regex.matchAt? text = some attempt)
    (hgroup : attempt.group? index = some word) : word ∈ regex.groupLanguage index := by
  refine mem_groupLanguage_of_mem_tries (List.mem_of_head? hmatch) ?_
  rw [Attempt.group?, List.lookup_eq_some_iff] at hgroup
  obtain ⟨before, behind, hgroups, -⟩ := hgroup
  rw [← List.mem_reverse, hgroups]
  simp

/-- The words of an expression start with a character of a set. -/
def StartsIn (regex : Regex) (accepts : Char → Bool) : Prop :=
  ∀ word ∈ regex.language, ∃ char rest, word = char :: rest ∧ accepts char = true

theorem startsIn_set (accepts : Char → Bool) : (Regex.set accepts).StartsIn accepts := by
  rintro word ⟨char, hchar, rfl⟩
  exact ⟨char, [], rfl, hchar⟩

theorem StartsIn.seq {first : Regex} {accepts : Char → Bool} (hfirst : first.StartsIn accepts)
    (second : Regex) : (Regex.seq first second).StartsIn accepts := by
  intro word hword
  obtain ⟨front, hfront, back, -, rfl⟩ := Language.mem_mul.mp hword
  obtain ⟨char, rest, rfl, hchar⟩ := hfirst front hfront
  exact ⟨char, rest ++ back, rfl, hchar⟩

theorem StartsIn.group {item : Regex} {accepts : Char → Bool} (hitem : item.StartsIn accepts)
    (index : ℕ) : (Regex.group index item).StartsIn accepts := hitem

theorem StartsIn.matchAt?_nil {regex : Regex} {accepts : Char → Bool}
    (hstart : regex.StartsIn accepts) : regex.matchAt? [] = none := by
  refine matchAt?_eq_none fun word hword rest htext ↦ ?_
  obtain ⟨char, behind, rfl, -⟩ := hstart word hword
  exact List.cons_ne_nil _ _ htext

theorem StartsIn.matchAt?_cons {regex : Regex} {accepts : Char → Bool}
    (hstart : regex.StartsIn accepts) {char : Char} (hchar : accepts char = false)
    (rest : List Char) : regex.matchAt? (char :: rest) = none := by
  refine matchAt?_eq_none fun word hword behind htext ↦ ?_
  obtain ⟨other, more, rfl, hother⟩ := hstart word hword
  rw [List.cons_append, List.cons.injEq] at htext
  rw [htext.1, hchar] at hother
  exact Bool.false_ne_true hother

/-- The words of a repetition with a count are made of that many words. -/
theorem exists_parts_of_mem_times {item : Regex} {count : ℕ} {word : List Char}
    (hword : word ∈ (times item count).language) :
    ∃ parts : List (List Char), parts.length = count ∧ (∀ part ∈ parts, part ∈ item.language) ∧
      word = parts.flatten := by
  induction count generalizing word with
  | zero => exact ⟨[], rfl, fun _ hpart ↦ absurd hpart List.not_mem_nil, hword⟩
  | succ count ih =>
    obtain ⟨front, hfront, back, hback, rfl⟩ := Language.mem_mul.mp hword
    obtain ⟨parts, rfl, hparts, rfl⟩ := ih hback
    exact ⟨front :: parts, rfl, List.forall_mem_cons.mpr ⟨hfront, hparts⟩, rfl⟩

/-- The words of a repetition of characters. -/
theorem forall_of_mem_star_set {accepts : Char → Bool} {word : List Char}
    (hword : word ∈ (Regex.star (.set accepts)).language) : ∀ char ∈ word, accepts char = true := by
  obtain ⟨parts, rfl, hparts⟩ := Language.mem_kstar.mp hword
  intro char hchar
  obtain ⟨part, hpart, hmem⟩ := List.mem_flatten.mp hchar
  obtain ⟨other, hother, rfl⟩ := hparts part hpart
  rwa [List.mem_singleton.mp hmem]

theorem forall_of_mem_plus_set {accepts : Char → Bool} {word : List Char}
    (hword : word ∈ (plus (.set accepts)).language) :
    word ≠ [] ∧ ∀ char ∈ word, accepts char = true := by
  obtain ⟨front, ⟨char, hchar, rfl⟩, back, hback, rfl⟩ := Language.mem_mul.mp hword
  exact ⟨List.cons_ne_nil _ _, List.forall_mem_cons.mpr ⟨hchar, forall_of_mem_star_set hback⟩⟩

/-- The words of a bounded repetition of characters. -/
theorem length_le_of_mem_atMost_set {accepts : Char → Bool} {count : ℕ} {word : List Char}
    (hword : word ∈ (atMost (.set accepts) count).language) :
    word.length ≤ count ∧ ∀ char ∈ word, accepts char = true := by
  induction count generalizing word with
  | zero =>
    obtain rfl : word = [] := hword
    exact ⟨le_rfl, fun _ hchar ↦ absurd hchar List.not_mem_nil⟩
  | succ count ih =>
    rcases hword with hword | hword
    · obtain ⟨front, ⟨char, hchar, rfl⟩, back, hback, rfl⟩ := Language.mem_mul.mp hword
      obtain ⟨hlength, hback⟩ := ih hback
      exact ⟨Nat.succ_le_succ hlength, List.forall_mem_cons.mpr ⟨hchar, hback⟩⟩
    · obtain rfl : word = [] := hword
      exact ⟨Nat.zero_le _, fun _ hchar ↦ absurd hchar List.not_mem_nil⟩

/-! ### Matches without backtracking -/

section Heads

variable {P : Char → Prop}

theorem forall_head?_cons {char : Char} (hchar : P char) (rest : List Char) :
    ∀ other ∈ (char :: rest).head?, P other := by
  intro other hother
  obtain rfl := Option.some.inj hother
  exact hchar

theorem forall_head?_append {front : List Char} (hne : front ≠ []) (hfront : ∀ char ∈ front, P char)
    (rest : List Char) : ∀ other ∈ (front ++ rest).head?, P other := by
  obtain ⟨char, front, rfl⟩ := List.exists_cons_of_ne_nil hne
  exact forall_head?_cons (hfront char (List.mem_cons_self ..)) _

end Heads

section Matches

variable {regex first second item : Regex} {text run rest : List Char} {attempt next : Attempt}
  {accepts : Char → Bool}

theorem matchAt?_seq (hfirst : first.matchAt? text = some attempt)
    (hsecond : second.matchAt? attempt.rest = some next) :
    (Regex.seq first second).matchAt? text = some (attempt.behind next) := by
  obtain ⟨others, hothers⟩ := List.head?_eq_some_iff.mp hfirst
  obtain ⟨more, hmore⟩ := List.head?_eq_some_iff.mp hsecond
  rw [matchAt?, tries, hothers, List.flatMap_cons, hmore, List.map_cons]
  rfl

theorem matchAt?_set {char : Char} (hchar : accepts char = true) (rest : List Char) :
    (Regex.set accepts).matchAt? (char :: rest) = some ⟨[], rest⟩ := by
  rw [matchAt?, tries, if_pos hchar]
  rfl

theorem matchAt?_literal (word rest : List Char) :
    (literal word).matchAt? (word ++ rest) = some ⟨[], rest⟩ := by
  induction word with
  | nil => rfl
  | cons char word ih => exact matchAt?_seq (matchAt?_set (decide_eq_true rfl) _) ih

theorem matchAt?_orElse_left (hfirst : first.matchAt? text = some attempt) :
    (Regex.orElse first second).matchAt? text = some attempt := by
  rw [matchAt?, tries, List.head?_append_of_ne_nil]
  · exact hfirst
  · intro hnil
    rw [matchAt?, hnil] at hfirst
    exact Option.some_ne_none attempt hfirst.symm

theorem matchAt?_orElse_right (hfirst : first.matchAt? text = none) :
    (Regex.orElse first second).matchAt? text = second.matchAt? text := by
  rw [matchAt?, tries, List.head?_eq_none_iff.mp hfirst, List.nil_append, matchAt?]

theorem matchAt?_group (index : ℕ) (hitem : item.matchAt? (run ++ rest) = some attempt)
    (hrest : attempt.rest = rest) :
    (Regex.group index item).matchAt? (run ++ rest) =
      some ⟨attempt.groups ++ [(index, run)], rest⟩ := by
  rw [matchAt?, tries, List.head?_map]
  rw [matchAt?] at hitem
  rw [hitem, Option.map_some, hrest, List.length_append, Nat.add_sub_cancel, List.take_left' rfl]

/-- A greedy repetition of characters takes all of them. -/
theorem head?_repeated_set (hrun : ∀ char ∈ run, accepts char = true)
    (hrest : ∀ char ∈ rest.head?, accepts char = false) {fuel : ℕ} (hfuel : run.length ≤ fuel) :
    (repeated (Regex.set accepts).tries fuel (run ++ rest)).head? = some ⟨[], rest⟩ := by
  induction run generalizing fuel with
  | nil =>
    cases fuel with
    | zero => rfl
    | succ fuel =>
      cases rest with
      | nil => rfl
      | cons char rest =>
        rw [List.nil_append, repeated, tries, if_neg (by rw [hrest char rfl]; decide)]
        rfl
  | cons char run ih =>
    cases fuel with
    | zero => exact absurd hfuel (Nat.not_succ_le_zero _)
    | succ fuel =>
      have htail := ih (fun other hother ↦ hrun other (List.mem_cons_of_mem _ hother))
        (Nat.le_of_succ_le_succ hfuel)
      obtain ⟨others, hothers⟩ := List.head?_eq_some_iff.mp htail
      rw [List.cons_append, repeated, tries, if_pos (hrun char (List.mem_cons_self ..)),
        List.filter_cons_of_pos (by simp), List.flatMap_cons, hothers, List.map_cons]
      rfl

theorem matchAt?_star_set (hrun : ∀ char ∈ run, accepts char = true)
    (hrest : ∀ char ∈ rest.head?, accepts char = false) :
    (Regex.star (.set accepts)).matchAt? (run ++ rest) = some ⟨[], rest⟩ := by
  rw [matchAt?, tries]
  exact head?_repeated_set hrun hrest (by rw [List.length_append]; exact Nat.le_add_right _ _)

theorem matchAt?_plus_set (hne : run ≠ []) (hrun : ∀ char ∈ run, accepts char = true)
    (hrest : ∀ char ∈ rest.head?, accepts char = false) :
    (plus (.set accepts)).matchAt? (run ++ rest) = some ⟨[], rest⟩ := by
  cases run with
  | nil => exact absurd rfl hne
  | cons char run =>
    exact matchAt?_seq (matchAt?_set (hrun char (List.mem_cons_self ..)) _)
      (matchAt?_star_set (fun other hother ↦ hrun other (List.mem_cons_of_mem _ hother)) hrest)

/-- A bounded repetition of characters takes all of them, where they are not more. -/
theorem matchAt?_atMost_set {count : ℕ} (hrun : ∀ char ∈ run, accepts char = true)
    (hlength : run.length ≤ count) (hrest : ∀ char ∈ rest.head?, accepts char = false) :
    (atMost (.set accepts) count).matchAt? (run ++ rest) = some ⟨[], rest⟩ := by
  induction count generalizing run with
  | zero =>
    obtain rfl := List.length_eq_zero_iff.mp (Nat.le_zero.mp hlength)
    rfl
  | succ count ih =>
    cases run with
    | nil =>
      have hnone : (Regex.seq (.set accepts) (atMost (.set accepts) count)).matchAt? rest =
          none := by
        cases rest with
        | nil => exact ((startsIn_set accepts).seq _).matchAt?_nil
        | cons char rest => exact ((startsIn_set accepts).seq _).matchAt?_cons (hrest char rfl) rest
      rw [List.nil_append, atMost, optional, matchAt?_orElse_right hnone]
      rfl
    | cons char run =>
      rw [List.forall_mem_cons] at hrun
      exact matchAt?_orElse_left (matchAt?_seq (matchAt?_set hrun.1 _)
        (ih hrun.2 (Nat.le_of_succ_le_succ hlength)))

end Matches

/-! ### Searches -/

section Searches

variable {regex : Regex} {text taken rest : List Char} {attempt : Attempt}

theorem search?_of_matchAt? (hmatch : regex.matchAt? text = some attempt) :
    regex.search? text = some attempt := by
  cases text with
  | nil => exact hmatch
  | cons char rest => rw [search?, hmatch]

theorem search?_cons_of_none {char : Char} (hnone : regex.matchAt? (char :: rest) = none) :
    regex.search? (char :: rest) = regex.search? rest := by
  rw [search?, hnone]

/-- What a search finds is a match at some place. -/
theorem exists_matchAt?_of_search? (hsearch : regex.search? text = some attempt) :
    ∃ front behind, text = front ++ behind ∧ regex.matchAt? behind = some attempt := by
  induction text with
  | nil => exact ⟨[], [], rfl, hsearch⟩
  | cons char rest ih =>
    cases hmatch : regex.matchAt? (char :: rest) with
    | some found =>
      rw [search?_of_matchAt? hmatch] at hsearch
      exact ⟨[], char :: rest, rfl, hmatch.trans hsearch⟩
    | none =>
      rw [search?_cons_of_none hmatch] at hsearch
      obtain ⟨front, behind, rfl, hfound⟩ := ih hsearch
      exact ⟨char :: front, behind, rfl, hfound⟩

/-- Nothing is found in the front of a text where no word of the expression starts. -/
theorem StartsIn.search?_append {accepts : Char → Bool} (hstart : regex.StartsIn accepts)
    {front : List Char} (hfront : ∀ char ∈ front, accepts char = false) (rest : List Char) :
    regex.search? (front ++ rest) = regex.search? rest := by
  induction front with
  | nil => rfl
  | cons char front ih =>
    rw [List.forall_mem_cons] at hfront
    rw [List.cons_append, search?_cons_of_none (hstart.matchAt?_cons hfront.1 _), ih hfront.2]

/-- The matches behind some characters are those of the text behind them. -/
theorem matchesBehind_eq_findAll (skipped : ℕ) (text : List Char) :
    regex.matchesBehind skipped text = regex.findAll (text.drop skipped) := by
  induction text generalizing skipped with
  | nil => rw [List.drop_nil, findAll, matchesBehind, matchesBehind]
  | cons char rest ih =>
    cases skipped with
    | zero => rfl
    | succ skipped => rw [matchesBehind, ih, List.drop_succ_cons]

theorem findAll_cons_of_none {char : Char} (hnone : regex.matchAt? (char :: rest) = none) :
    regex.findAll (char :: rest) = regex.findAll rest := by
  rw [findAll, matchesBehind, hnone]
  rfl

/-- A match, and those behind it. -/
theorem findAll_of_matchAt? (hne : taken ≠ [])
    (hmatch : regex.matchAt? (taken ++ rest) = some attempt) (hrest : attempt.rest = rest) :
    regex.findAll (taken ++ rest) = attempt :: regex.findAll rest := by
  cases taken with
  | nil => exact absurd rfl hne
  | cons char taken =>
    rw [List.cons_append] at hmatch ⊢
    rw [findAll, matchesBehind, hmatch]
    dsimp only
    rw [matchesBehind_eq_findAll, hrest, List.length_append, Nat.add_sub_cancel,
      List.drop_left' rfl]

/-- Nothing is found in the front of a text at whose characters nothing is matched. -/
theorem findAll_append_of_none (front : List Char)
    (hnone : ∀ before char behind, front = before ++ char :: behind →
      regex.matchAt? (char :: (behind ++ rest)) = none) :
    regex.findAll (front ++ rest) = regex.findAll rest := by
  induction front with
  | nil => rfl
  | cons char front ih =>
    rw [List.cons_append, findAll_cons_of_none (hnone [] char front rfl)]
    exact ih fun before other behind hsplit ↦
      hnone (char :: before) other behind (by rw [hsplit, List.cons_append])

theorem StartsIn.findAll_append {accepts : Char → Bool} (hstart : regex.StartsIn accepts)
    {front : List Char} (hfront : ∀ char ∈ front, accepts char = false) (rest : List Char) :
    regex.findAll (front ++ rest) = regex.findAll rest :=
  findAll_append_of_none front fun before char behind hsplit ↦
    hstart.matchAt?_cons (hfront char (by rw [hsplit]; simp)) _

end Searches

/-! ### Anchors -/

section Anchors

variable {regex : Regex} {lineEnd : Char} {blank : Char → Bool} {anchor front rest : List Char}

/-- Every word of an expression is a head within a line, blanks, an anchor and more. -/
def AnchoredBy (regex : Regex) (lineEnd : Char) (blank : Char → Bool) (anchor : List Char) : Prop :=
  ∀ word ∈ regex.language, ∃ head gap more, word = head ++ (gap ++ (anchor ++ more)) ∧
    lineEnd ∉ head ∧ ∀ char ∈ gap, blank char = true

/-- Lines without the anchor do not start a match, when what is behind them can neither be a blank
nor start the anchor. -/
theorem AnchoredBy.matchAt?_eq_none (hanchored : regex.AnchoredBy lineEnd blank anchor)
    (hanchor : lineEnd ∉ anchor) (hfront : front.getLast? = some lineEnd)
    (hnone : ¬anchor <:+: front)
    (hrest : ∀ char ∈ rest.head?, blank char = false ∧ anchor.head? ≠ some char) :
    regex.matchAt? (front ++ rest) = none := by
  refine Regex.matchAt?_eq_none fun word hword behind htext ↦ ?_
  obtain ⟨head, gap, more, rfl, hhead, hgap⟩ := hanchored word hword
  obtain ⟨init, rfl⟩ := List.getLast?_eq_some_iff.mp hfront
  have hsplit : (head ++ (gap ++ anchor)) ++ (more ++ behind) = (init ++ [lineEnd]) ++ rest := by
    simpa only [List.append_assoc] using htext
  rcases List.append_eq_append_iff.mp hsplit with ⟨middle, hinside, -⟩ | ⟨middle, hbehind, hmiddle⟩
  · exact hnone ⟨head ++ gap, middle, by rw [hinside, List.append_assoc head]⟩
  · cases middle with
    | nil =>
      refine hnone ⟨head ++ gap, [], ?_⟩
      rw [List.append_nil] at hbehind
      rw [List.append_nil, ← hbehind, List.append_assoc]
    | cons char middle =>
      obtain ⟨hblank, hstart⟩ := hrest char (by rw [hmiddle]; rfl)
      -- The line end is in the blanks, and the next character is a blank or starts the anchor.
      rcases List.append_eq_append_iff.mp hbehind with
        ⟨taken, hends, hgapped⟩ | ⟨taken, hends, -⟩
      · rcases List.eq_nil_or_concat taken with rfl | ⟨blanks, last, rfl⟩
        · rw [List.append_nil] at hends
          exact hhead (hends ▸ List.mem_append_right _ (List.mem_singleton_self _))
        · rw [List.concat_eq_append, ← List.append_assoc] at hends
          obtain rfl := (List.append_singleton_inj.mp hends).2
          rcases List.append_eq_append_iff.mp hgapped with
            ⟨part, hpart, hanchors⟩ | ⟨part, hpart, hanchors⟩
          · cases part with
            | nil => exact hstart (by rw [hanchors]; rfl)
            | cons first part =>
              have hlast : (first :: part).getLast? = some lineEnd := by
                rw [← List.getLast?_append_of_ne_nil gap (List.cons_ne_nil _ _), ← hpart,
                  List.concat_eq_append, List.getLast?_concat]
              exact hanchor (hanchors ▸ List.mem_append_left _ (List.mem_of_getLast? hlast))
          · cases part with
            | nil => exact hstart (by rw [← List.nil_append anchor, ← hanchors]; rfl)
            | cons first part =>
              obtain ⟨rfl, -⟩ := List.cons_eq_cons.mp hanchors
              rw [hgap char (by rw [hpart]; simp)] at hblank
              exact Bool.noConfusion hblank
      · exact hhead (by rw [hends]; simp)

/-- A search skips lines without the anchor. -/
theorem AnchoredBy.search?_append (hanchored : regex.AnchoredBy lineEnd blank anchor)
    (hanchor : lineEnd ∉ anchor) (hfront : ∀ char ∈ front.getLast?, char = lineEnd)
    (hnone : ¬anchor <:+: front)
    (hrest : ∀ char ∈ rest.head?, blank char = false ∧ anchor.head? ≠ some char) :
    regex.search? (front ++ rest) = regex.search? rest := by
  induction front with
  | nil => rfl
  | cons char front ih =>
    have hlast : (char :: front).getLast? = some lineEnd := by
      cases hget : (char :: front).getLast? with
      | none => exact absurd (List.getLast?_eq_none_iff.mp hget) (List.cons_ne_nil _ _)
      | some last => rw [hfront last hget]
    have hmatch := hanchored.matchAt?_eq_none hanchor hlast hnone hrest
    rw [List.cons_append] at hmatch ⊢
    rw [search?_cons_of_none hmatch]
    refine ih (fun last hget ↦ hfront last ?_) fun hinfix ↦ hnone ?_
    · cases front with
      | nil => exact absurd hget (Option.some_ne_none _).symm
      | cons next front => rwa [List.getLast?_cons_cons]
    · exact hinfix.trans (List.suffix_cons char front).isInfix

/-- A text without a character of every word is not matched anywhere. -/
theorem search?_eq_none_of_notMem {char : Char} (hwords : ∀ word ∈ regex.language, char ∈ word)
    {text : List Char} (htext : char ∉ text) : regex.search? text = none := by
  cases hsearch : regex.search? text with
  | none => rfl
  | some attempt =>
    obtain ⟨before, behind, rfl, hmatch⟩ := exists_matchAt?_of_search? hsearch
    obtain ⟨word, hword, rfl⟩ := mem_language_of_mem_tries (List.mem_of_head? hmatch)
    exact absurd (List.mem_append_right _ (List.mem_append_left _ (hwords word hword))) htext

/-- The only word of a literal. -/
theorem eq_of_mem_language_literal {letters word : List Char}
    (hword : word ∈ (literal letters).language) : word = letters := by
  induction letters generalizing word with
  | nil => exact hword
  | cons letter letters ih =>
    obtain ⟨front, ⟨char, hchar, rfl⟩, back, hback, rfl⟩ := Language.mem_mul.mp hword
    rw [of_decide_eq_true hchar, ih hback, List.singleton_append]

/-- An optional item that does not match is skipped. -/
theorem matchAt?_optional_of_none {item : Regex} {text : List Char}
    (hnone : item.matchAt? text = none) : (optional item).matchAt? text = some ⟨[], text⟩ := by
  rw [optional, matchAt?_orElse_right hnone]
  rfl

end Anchors

end Regex

end Lnmp.Foundation
