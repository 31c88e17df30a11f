import Mathlib.Data.List.Nodup
import Lnmp.Foundation.IpAddress

/-!
# Printed addresses parse

`isAddressText_inetNtopV4` and `isAddressText_inetNtopV6`: the address parser accepts everything
that the printers of the two families produce, also when the text is stripped before.

For IPv6 the printed text is split at its colons again. It has eight groups, or one empty group
inside where the zero groups were left out, with at most six groups in front of it and behind it
together; a dotted quad at the end parses and stands for two groups.
-/

set_option autoImplicit false
set_option relaxedAutoImplicit false

namespace Lnmp.Foundation.IpAddress

open PythonText

/-! ### Splitting what was joined -/

theorem splitChars_of_forall_ne {separator : Char} {part : List Char}
    (hpart : ∀ char ∈ part, char ≠ separator) : splitChars separator part = [part] := by
  induction part with
  | nil => rfl
  | cons char part ih =>
    have hrest := ih fun other hother ↦ hpart other (List.mem_cons_of_mem _ hother)
    rw [splitChars, if_neg (hpart char (List.mem_cons_self ..)), hrest]

theorem splitChars_append {separator : Char} {part : List Char}
    (hpart : ∀ char ∈ part, char ≠ separator) (rest : List Char) :
    splitChars separator (part ++ separator :: rest) = part :: splitChars separator rest := by
  rw [splitChars_append_cons, splitChars_of_forall_ne hpart, List.singleton_append]

/-- Joined parts split again. -/
theorem splitChars_joinChars {separator : Char} {parts : List (List Char)} (hne : parts ≠ [])
    (hparts : ∀ part ∈ parts, ∀ char ∈ part, char ≠ separator) :
    splitChars separator (joinChars separator parts) = parts := by
  induction parts with
  | nil => exact absurd rfl hne
  | cons part rest ih =>
    have hpart := hparts part (List.mem_cons_self ..)
    cases rest with
    | nil => exact splitChars_of_forall_ne hpart
    | cons next rest =>
      rw [joinChars, splitChars_append hpart, ih (List.cons_ne_nil _ _) fun other hother ↦
        hparts other (List.mem_cons_of_mem _ hother)]

/-- A character of joined parts is the separator or one of theirs. -/
theorem mem_joinChars {separator char : Char} {parts : List (List Char)}
    (hchar : char ∈ joinChars separator parts) :
    char = separator ∨ ∃ part ∈ parts, char ∈ part := by
  induction parts with
  | nil => exact absurd hchar List.not_mem_nil
  | cons part rest ih =>
    cases rest with
    | nil => exact Or.inr ⟨part, List.mem_cons_self .., hchar⟩
    | cons next rest =>
      rw [joinChars, List.mem_append, List.mem_cons] at hchar
      rcases hchar with hpart | hseparator | hrest
      · exact Or.inr ⟨part, List.mem_cons_self .., hpart⟩
      · exact Or.inl hseparator
      · refine (ih hrest).imp_right ?_
        rintro ⟨other, hother, hmem⟩
        exact ⟨other, List.mem_cons_of_mem _ hother, hmem⟩

theorem mem_toDigits {base number : ℕ} (hbase : 1 < base) {char : Char}
    (hchar : char ∈ Nat.toDigits base number) : ∃ digit < base, char = Nat.digitChar digit := by
  induction number using Nat.strongRecOn with
  | ind number ih =>
    rcases lt_or_ge number base with hlt | hge
    · rw [Nat.toDigits_of_lt_base hlt, List.mem_singleton] at hchar
      exact ⟨number, hlt, hchar⟩
    · rw [Nat.toDigits_of_base_le hbase hge, List.mem_append, List.mem_singleton] at hchar
      rcases hchar with hhigh | hlast
      · exact ih (number / base) (Nat.div_lt_self (by omega) hbase) hhigh
      · exact ⟨number % base, Nat.mod_lt _ (by omega), hlast⟩

/-- The characters of an address without separators. -/
def IsHexChar (char : Char) : Prop := (hexValue? char).isSome = true

theorem isHexChar_digitChar : ∀ digit < 16, IsHexChar (Nat.digitChar digit) := by
  unfold IsHexChar
  decide

theorem isHexChar_of_mem_toDigits {base number : ℕ} (hbase : 1 < base) (hle : base ≤ 16)
    {char : Char} (hchar : char ∈ Nat.toDigits base number) : IsHexChar char := by
  obtain ⟨digit, hdigit, rfl⟩ := mem_toDigits hbase hchar
  exact isHexChar_digitChar digit (hdigit.trans_le hle)

theorem IsHexChar.ne {char other : Char} (hchar : IsHexChar char)
    (hother : hexValue? other = none) : char ≠ other := by
  rintro rfl
  rw [IsHexChar, hother] at hchar
  exact absurd hchar Bool.false_ne_true

theorem parseOctet_toDigits : ∀ octet < 256, parseOctet (Nat.toDigits 10 octet) = some octet := by
  decide +kernel

/-- The parser accepts a printed dotted quad. -/
theorem isSome_parseIpv4_dottedQuad {octets : List ℕ} (hlength : octets.length = 4)
    (hoctets : ∀ octet ∈ octets, octet < 256) : (parseIpv4 (dottedQuad octets)).isSome = true := by
  match octets, hlength with
  | [first, second, third, fourth], _ =>
    have hsplit : splitChars '.' (dottedQuad [first, second, third, fourth]) =
        [first, second, third, fourth].map (Nat.toDigits 10) := by
      refine splitChars_joinChars (by simp) fun part hpart char hchar ↦ ?_
      obtain ⟨octet, -, rfl⟩ := List.mem_map.mp hpart
      exact (isHexChar_of_mem_toDigits (by decide) (by decide) hchar).ne (by decide)
    unfold parseIpv4
    rw [hsplit]
    simp only [List.mem_cons, List.not_mem_nil, or_false, forall_eq_or_imp, forall_eq] at hoctets
    obtain ⟨hfirst, hsecond, hthird, hfourth⟩ := hoctets
    simp [parseOctet_toDigits, hfirst, hsecond, hthird, hfourth]

theorem isSome_mapM_iff {Item Result : Type*} {read : Item → Option Result} {items : List Item} :
    (items.mapM read).isSome = true ↔ ∀ item ∈ items, (read item).isSome = true := by
  induction items with
  | nil => simp
  | cons item items ih =>
    rw [List.forall_mem_cons, ← ih, List.mapM_cons]
    cases read item with
    | none => simp
    | some result => cases items.mapM read <;> simp

/-- The text of a group of an IPv6 address. -/
def IsGroupText (text : List Char) : Prop := (parseHextet text).isSome = true

theorem isGroupText_iff {text : List Char} :
    IsGroupText text ↔ (text ≠ [] ∧ text.length ≤ 4) ∧ ∀ char ∈ text, IsHexChar char := by
  unfold IsGroupText parseHextet IsHexChar
  split_ifs with htext
  · rw [Option.isSome_map, isSome_mapM_iff, and_iff_right htext]
  · simp [htext]

theorem isGroupText_toDigits {group : ℕ} (hgroup : group < 65536) :
    IsGroupText (Nat.toDigits 16 group) := by
  have hlength : (Nat.toDigits 16 group).length ≤ 4 :=
    (Nat.length_toDigits_le_iff (by decide) (by decide)).mpr hgroup
  exact isGroupText_iff.mpr ⟨⟨Nat.toDigits_ne_nil, hlength⟩, fun _ hchar ↦
    isHexChar_of_mem_toDigits (by decide) le_rfl hchar⟩

/-- The only number of a range with a property. -/
theorem filter_range_eq_singleton {bound index : ℕ} {property : ℕ → Prop}
    [DecidablePred property] (hindex : index < bound)
    (honly : ∀ other < bound, property other ↔ other = index) :
    ((List.range bound).filter fun other ↦ property other) = [index] := by
  have hsame : ((List.range bound).filter fun other ↦ property other) =
      (List.range bound).filter (· = index) :=
    List.filter_congr fun other hother ↦ by
      simp only [honly other (List.mem_range.mp hother)]
  rw [hsame, List.filter_eq, List.count_eq_one_of_mem List.nodup_range (List.mem_range.mpr hindex)]
  rfl

/-- The texts at an end of an abbreviation. -/
theorem getElem?_endTexts_ne_nil {texts : List (List Char)}
    (htexts : ∀ text ∈ texts, IsGroupText text) {index : ℕ} (hindex : texts ≠ [] ∨ 0 < index) :
    (endTexts texts)[index]? ≠ some [] := by
  unfold endTexts
  split_ifs with hempty
  · have hpos : 0 < index := hindex.resolve_left (not_not.mpr hempty)
    rw [List.getElem?_eq_none (Nat.succ_le_of_lt hpos)]
    exact (Option.some_ne_none _).symm
  · intro hnil
    exact (isGroupText_iff.mp (htexts [] (List.mem_of_getElem? hnil))).1.1 rfl

theorem length_endTexts_pos (texts : List (List Char)) : 0 < (endTexts texts).length := by
  unfold endTexts
  split_ifs with hempty
  · exact Nat.one_pos
  · exact List.length_pos_iff.mpr hempty

/-- An abbreviated address has one empty group inside, between the groups in front and behind. -/
theorem skipIndices_abbreviated {high low : List (List Char)}
    (hhigh : ∀ text ∈ high, IsGroupText text) (hlow : ∀ text ∈ low, IsGroupText text) :
    skipIndices (endTexts high ++ [] :: endTexts low) = [(endTexts high).length] := by
  have hhighPos := length_endTexts_pos high
  have hlowPos := length_endTexts_pos low
  refine filter_range_eq_singleton (by simp) fun other hother ↦ ?_
  rw [List.length_append, List.length_cons] at hother ⊢
  rcases lt_trichotomy other (endTexts high).length with hlt | rfl | hgt
  · rw [List.getElem?_append_left hlt]
    refine iff_of_false ?_ hlt.ne
    rintro ⟨hpos, -, hempty⟩
    exact getElem?_endTexts_ne_nil hhigh (Or.inr hpos) hempty
  · rw [List.getElem?_append_right le_rfl, Nat.sub_self, List.getElem?_cons_zero]
    exact iff_of_true ⟨hhighPos, by omega, rfl⟩ rfl
  · obtain ⟨offset, rfl⟩ : ∃ offset, other = (endTexts high).length + (offset + 1) :=
      ⟨other - (endTexts high).length - 1, by omega⟩
    rw [List.getElem?_append_right (by omega), Nat.add_sub_cancel_left, List.getElem?_cons_succ]
    refine iff_of_false ?_ (by omega)
    rintro ⟨-, hinside, hempty⟩
    refine getElem?_endTexts_ne_nil hlow ?_ hempty
    by_contra hnot
    obtain ⟨hnil, hzero⟩ := not_or.mp hnot
    have hone : (endTexts low).length = 1 := by rw [endTexts, if_pos (not_not.mp hnil)]; rfl
    omega

theorem headGroups_endTexts {texts : List (List Char)} (htexts : ∀ text ∈ texts, IsGroupText text) :
    headGroups (endTexts texts) = some texts := by
  cases texts with
  | nil => rfl
  | cons text rest =>
    have hne := (isGroupText_iff.mp (htexts text (List.mem_cons_self ..))).1.1
    obtain ⟨char, chars, rfl⟩ := List.exists_cons_of_ne_nil hne
    rfl

theorem tailGroups_endTexts {texts : List (List Char)} (htexts : ∀ text ∈ texts, IsGroupText text) :
    tailGroups (endTexts texts) = some texts := by
  unfold tailGroups endTexts
  by_cases hempty : texts = []
  · simp [hempty]
  · have hnil : [] ∉ texts := fun hmem ↦ (isGroupText_iff.mp (htexts [] hmem)).1.1 rfl
    rw [if_neg hempty, if_neg, if_neg]
    · exact fun hlast ↦ hnil (List.mem_of_getLast? hlast)
    · rintro rfl
      exact hnil (List.mem_singleton_self _)

/-- The parser accepts the groups of an abbreviated address. -/
theorem isSome_parseGroups_abbreviated {high low : List (List Char)}
    (hhigh : ∀ text ∈ high, IsGroupText text) (hlow : ∀ text ∈ low, IsGroupText text)
    (hlength : high.length + low.length ≤ 6) :
    (parseGroups (endTexts high ++ [] :: endTexts low)).isSome = true := by
  obtain ⟨highValues, hhighValues⟩ := Option.isSome_iff_exists.mp (isSome_mapM_iff.mpr hhigh)
  obtain ⟨lowValues, hlowValues⟩ := Option.isSome_iff_exists.mp (isSome_mapM_iff.mpr hlow)
  have hshort : ¬ 9 < (endTexts high ++ [] :: endTexts low).length := by
    have hends : ∀ texts : List (List Char), (endTexts texts).length ≤ max 1 texts.length := by
      intro texts
      unfold endTexts
      split_ifs <;> simp
    have hfirst := hends high
    have hsecond := hends low
    simp only [List.length_append, List.length_cons]
    omega
  rw [parseGroups, if_neg hshort, skipIndices_abbreviated hhigh hlow]
  dsimp only
  rw [List.take_left, List.drop_append, List.drop_of_length_le (Nat.le_succ _), List.nil_append,
    Nat.add_sub_cancel_left, List.drop_one, List.tail_cons, headGroups_endTexts hhigh,
    tailGroups_endTexts hlow]
  simp only [Option.bind_eq_bind, Option.bind_some]
  rw [if_pos (by omega), hhighValues, hlowValues]
  rfl

theorem zeroRun_le_length (groups : List ℕ) : zeroRun groups ≤ groups.length := by
  fun_induction zeroRun groups with
  | case1 rest ih => exact Nat.succ_le_succ ih
  | case2 => exact Nat.zero_le _

/-- The longest run of zero groups lies inside the list. -/
theorem longestZeroRun_le (place : ℕ) (groups : List ℕ) :
    (longestZeroRun place groups).1 + (longestZeroRun place groups).2 ≤ place + groups.length := by
  fun_induction longestZeroRun place groups with
  | case1 place => exact le_rfl
  | case2 place group rest here later hlonger =>
    have hrun := zeroRun_le_length (group :: rest)
    omega
  | case3 place group rest here later hlonger ih =>
    have hrest : later.1 + later.2 ≤ place + 1 + rest.length := ih
    rw [List.length_cons]
    omega

/-- A text that can stand between two colons. -/
def IsPartText (text : List Char) : Prop := ∀ char ∈ text, IsHexChar char ∨ char = '.'

theorem IsPartText.ne {text : List Char} (htext : IsPartText text) {other : Char}
    (hother : hexValue? other = none) (hdot : other ≠ '.') : ∀ char ∈ text, char ≠ other := by
  intro char hchar
  rcases htext char hchar with hhex | rfl
  · exact hhex.ne hother
  · exact hdot.symm

theorem IsGroupText.isPartText {text : List Char} (htext : IsGroupText text) : IsPartText text :=
  fun char hchar ↦ Or.inl ((isGroupText_iff.mp htext).2 char hchar)

theorem isPartText_dottedQuad (octets : List ℕ) : IsPartText (dottedQuad octets) := by
  intro char hchar
  rcases mem_joinChars hchar with hdot | ⟨part, hpart, hmem⟩
  · exact Or.inr hdot
  · obtain ⟨octet, -, rfl⟩ := List.mem_map.mp hpart
    exact Or.inl (isHexChar_of_mem_toDigits (by decide) (by decide) hmem)

/-- The parser of an address without scope. -/
theorem parseIpv6_joinChars {parts : List (List Char)} (hparts : ∀ part ∈ parts, IsPartText part) :
    parseIpv6 (joinChars ':' parts) = (ipv6Parts (joinChars ':' parts)).bind parseGroups := by
  have hscope : ∀ char ∈ joinChars ':' parts, char ≠ '%' := by
    intro char hchar
    rcases mem_joinChars hchar with rfl | ⟨part, hpart, hmem⟩
    · decide
    · exact (hparts part hpart).ne (by decide) (by decide) char hmem
  rw [parseIpv6, splitChars_of_forall_ne hscope]

theorem splitChars_colon {parts : List (List Char)} (hne : parts ≠ [])
    (hparts : ∀ part ∈ parts, IsPartText part) : splitChars ':' (joinChars ':' parts) = parts :=
  splitChars_joinChars hne fun part hpart ↦ (hparts part hpart).ne (by decide) (by decide)

/-- The parts of an address that ends in a group. -/
theorem ipv6Parts_joinChars {parts : List (List Char)} (hlength : 3 ≤ parts.length)
    (hparts : ∀ part ∈ parts, IsPartText part)
    (hlast : ∀ last, parts.getLast? = some last → '.' ∉ last) :
    ipv6Parts (joinChars ':' parts) = some parts := by
  have hne : parts ≠ [] := List.length_pos_iff.mp (by omega)
  rw [ipv6Parts, splitChars_colon hne hparts, if_neg (by omega),
    List.getLast?_eq_some_getLast hne]
  exact if_neg (hlast _ (List.getLast?_eq_some_getLast hne))

/-- The parts of an address that ends in a dotted quad. -/
theorem ipv6Parts_joinChars_quad {front : List (List Char)} (hlength : 2 ≤ front.length)
    (hfront : ∀ part ∈ front, IsPartText part) {high low : ℕ} (hhigh : high < 65536)
    (hlow : low < 65536) :
    ∃ first second, IsGroupText first ∧ IsGroupText second ∧
      ipv6Parts (joinChars ':' (front ++ [dottedQuad (quadOctets high low)])) =
        some (front ++ [first, second]) := by
  have hoctets : ∀ octet ∈ quadOctets high low, octet < 256 := by
    intro octet hoctet
    simp only [quadOctets, List.mem_cons, List.not_mem_nil, or_false] at hoctet
    omega
  have hquad : (parseIpv4 (dottedQuad (quadOctets high low))).isSome = true :=
    isSome_parseIpv4_dottedQuad rfl hoctets
  obtain ⟨value, hvalue⟩ := Option.isSome_iff_exists.mp hquad
  have hparts : ∀ part ∈ front ++ [dottedQuad (quadOctets high low)], IsPartText part := by
    intro part hpart
    rcases List.mem_append.mp hpart with hmem | hmem
    · exact hfront part hmem
    · rw [List.mem_singleton.mp hmem]
      exact isPartText_dottedQuad _
  have hdot : '.' ∈ dottedQuad (quadOctets high low) := by
    simp [dottedQuad, quadOctets, joinChars]
  refine ⟨Nat.toDigits 16 (value / 65536 % 65536), Nat.toDigits 16 (value % 65536),
    isGroupText_toDigits (Nat.mod_lt _ (by decide)),
    isGroupText_toDigits (Nat.mod_lt _ (by decide)), ?_⟩
  rw [ipv6Parts, splitChars_colon (List.concat_ne_nil _ _) hparts, if_neg (by simp; omega)]
  simp only [List.getLast?_concat, if_pos hdot, hvalue, Option.map_some, List.dropLast_concat]

theorem forall_mem_endTexts {texts : List (List Char)} (htexts : ∀ text ∈ texts, IsPartText text) :
    ∀ text ∈ endTexts texts, IsPartText text := by
  unfold endTexts
  split_ifs with hempty
  · intro text htext char hchar
    rw [List.mem_singleton.mp htext] at hchar
    exact absurd hchar List.not_mem_nil
  · exact htexts

theorem getLast?_endTexts {texts : List (List Char)} (htexts : ∀ text ∈ texts, IsGroupText text)
    {last : List Char} (hlast : (endTexts texts).getLast? = some last) : '.' ∉ last := by
  have hmem := List.mem_of_getLast? hlast
  unfold endTexts at hmem
  split_ifs at hmem
  · rw [List.mem_singleton.mp hmem]
    exact List.not_mem_nil
  · intro hdot
    exact ((isGroupText_iff.mp (htexts last hmem)).2 '.' hdot).ne (by decide) rfl

/-- An abbreviated address whose groups are all hexadecimal. -/
theorem isSome_parseIpv6_abbreviated {high low : List (List Char)}
    (hhigh : ∀ text ∈ high, IsGroupText text) (hlow : ∀ text ∈ low, IsGroupText text)
    (hlength : high.length + low.length ≤ 6) :
    (parseIpv6 (joinChars ':' (endTexts high ++ [] :: endTexts low))).isSome = true := by
  have hhighPos := length_endTexts_pos high
  have hlowPos := length_endTexts_pos low
  have hparts : ∀ part ∈ endTexts high ++ [] :: endTexts low, IsPartText part := by
    intro part hpart
    rcases List.mem_append.mp hpart with hmem | hmem
    · exact forall_mem_endTexts (fun text htext ↦ (hhigh text htext).isPartText) part hmem
    · rcases List.mem_cons.mp hmem with rfl | hmem
      · exact fun _ hchar ↦ absurd hchar List.not_mem_nil
      · exact forall_mem_endTexts (fun text htext ↦ (hlow text htext).isPartText) part hmem
  have hlast : ∀ last, (endTexts high ++ [] :: endTexts low).getLast? = some last →
      '.' ∉ last := by
    intro last hsome
    rw [List.getLast?_append_of_ne_nil _ (List.cons_ne_nil _ _),
      List.getLast?_cons_of_ne_nil (List.length_pos_iff.mp hlowPos)] at hsome
    exact getLast?_endTexts hlow hsome
  rw [parseIpv6_joinChars hparts, ipv6Parts_joinChars (by simp; omega) hparts hlast,
    Option.bind_some]
  exact isSome_parseGroups_abbreviated hhigh hlow hlength

/-- An address that is abbreviated at its start and ends in a dotted quad. -/
theorem isSome_parseIpv6_quad (front : List (List Char)) (hfront : ∀ text ∈ front, IsGroupText text)
    (hlength : front.length ≤ 4) {high low : ℕ} (hhigh : high < 65536) (hlow : low < 65536) :
    (parseIpv6 (joinChars ':' ([] :: [] :: front ++
      [dottedQuad (quadOctets high low)]))).isSome = true := by
  have hparts : ∀ part ∈ [] :: [] :: front, IsPartText part := by
    intro part hpart
    simp only [List.mem_cons] at hpart
    rcases hpart with rfl | rfl | hmem
    · exact fun _ hchar ↦ absurd hchar List.not_mem_nil
    · exact fun _ hchar ↦ absurd hchar List.not_mem_nil
    · exact (hfront part hmem).isPartText
  have hall : ∀ part ∈ [] :: [] :: front ++ [dottedQuad (quadOctets high low)],
      IsPartText part := by
    intro part hpart
    rcases List.mem_append.mp hpart with hmem | hmem
    · exact hparts part hmem
    · rw [List.mem_singleton.mp hmem]
      exact isPartText_dottedQuad _
  obtain ⟨first, second, hfirst, hsecond, hquad⟩ :=
    ipv6Parts_joinChars_quad (by simp) hparts hhigh hlow
  rw [parseIpv6_joinChars hall, hquad, Option.bind_some]
  have hlowTexts : ∀ text ∈ front ++ [first, second], IsGroupText text := by
    intro text htext
    simp only [List.mem_append, List.mem_cons, List.not_mem_nil, or_false] at htext
    rcases htext with hmem | rfl | rfl
    · exact hfront text hmem
    · exact hfirst
    · exact hsecond
  have hnone : ∀ text ∈ ([] : List (List Char)), IsGroupText text := fun _ hmem ↦
    absurd hmem List.not_mem_nil
  have hparsed := isSome_parseGroups_abbreviated hnone hlowTexts (by simp; omega)
  rwa [endTexts, if_pos rfl, endTexts, if_neg (by simp)] at hparsed

/-- An address that is not abbreviated. -/
theorem isSome_parseIpv6_full {texts : List (List Char)} (htexts : ∀ text ∈ texts, IsGroupText text)
    (hlength : texts.length = 8) : (parseIpv6 (joinChars ':' texts)).isSome = true := by
  have hparts : ∀ part ∈ texts, IsPartText part := fun text hmem ↦ (htexts text hmem).isPartText
  have hne : ∀ text ∈ texts, text ≠ [] := fun text hmem ↦
    (isGroupText_iff.mp (htexts text hmem)).1.1
  have hlast : ∀ last, texts.getLast? = some last → '.' ∉ last := by
    intro last hsome hdot
    have hgroup := htexts last (List.mem_of_getLast? hsome)
    exact ((isGroupText_iff.mp hgroup).2 '.' hdot).ne (by decide) rfl
  have hskip : skipIndices texts = [] := by
    refine List.filter_eq_nil_iff.mpr fun index _ ↦ ?_
    rw [decide_eq_true_eq]
    rintro ⟨-, -, hempty⟩
    exact hne [] (List.mem_of_getElem? hempty) rfl
  have hends : texts.head? ≠ some [] ∧ texts.getLast? ≠ some [] :=
    ⟨fun h ↦ hne [] (List.mem_of_head? h) rfl, fun h ↦ hne [] (List.mem_of_getLast? h) rfl⟩
  rw [parseIpv6_joinChars hparts, ipv6Parts_joinChars (by omega) hparts hlast, Option.bind_some,
    parseGroups, if_neg (by omega), hskip]
  dsimp only
  rw [if_pos ⟨hlength, hends⟩, Option.isSome_map]
  exact isSome_mapM_iff.mpr htexts

/-- The parser accepts the text of eight groups. -/
theorem isSome_parseIpv6_ntopGroups {groups : List ℕ} (hlength : groups.length = 8)
    (hgroups : ∀ group ∈ groups, group < 65536) :
    (parseIpv6 (ntopGroups groups)).isSome = true := by
  have htexts : ∀ some : List ℕ, (∀ group ∈ some, group ∈ groups) →
      ∀ text ∈ some.map (Nat.toDigits 16), IsGroupText text := by
    intro some hsome text htext
    obtain ⟨group, hgroup, rfl⟩ := List.mem_map.mp htext
    exact isGroupText_toDigits (hgroups group (hsome group hgroup))
  have hrun := longestZeroRun_le 0 groups
  unfold ntopGroups
  dsimp only
  generalize longestZeroRun 0 groups = best at hrun ⊢
  obtain ⟨place, count⟩ := best
  dsimp only at hrun ⊢
  rw [hlength] at hrun
  by_cases hshort : count < 2
  · rw [if_pos hshort]
    exact isSome_parseIpv6_full (htexts groups fun _ h ↦ h) (by simpa using hlength)
  · rw [if_neg hshort]
    have hrest : ∀ group ∈ groups.drop (place + count), group ∈ groups :=
      fun _ ↦ List.mem_of_mem_drop
    have hrestLength : (groups.drop (place + count)).length ≤ 6 - place := by
      rw [List.length_drop]
      omega
    have hhighLength : ((groups.take place).map (Nat.toDigits 16)).length ≤ place := by
      rw [List.length_map]
      exact List.length_take_le _ _
    have hlowLength :
        ((groups.drop (place + count)).map (Nat.toDigits 16)).length ≤ 6 - place := by
      rwa [List.length_map]
    have hhigh := htexts (groups.take place) fun _ ↦ List.mem_of_mem_take
    have hplain := isSome_parseIpv6_abbreviated hhigh (htexts _ hrest) (by omega)
    by_cases hstart : place = 0
    · rw [if_pos hstart]
      subst hstart
      rw [Nat.zero_add] at hplain hrest ⊢
      unfold lowTexts
      split
      · rename_i high low heq
        rw [heq] at hplain hrest
        split_ifs
        · exact isSome_parseIpv6_quad [] (fun _ hmem ↦ absurd hmem List.not_mem_nil)
            (by decide) (hgroups high (hrest high (by simp))) (hgroups low (hrest low (by simp)))
        · exact hplain
      · rename_i mapped high low heq
        rw [heq] at hplain hrest
        split_ifs
        · have hmapped := isGroupText_toDigits (hgroups mapped (hrest mapped (by simp)))
          refine isSome_parseIpv6_quad [Nat.toDigits 16 mapped] (fun text hmem ↦ ?_)
            (by simp) (hgroups high (hrest high (by simp))) (hgroups low (hrest low (by simp)))
          rwa [List.mem_singleton.mp hmem]
        · exact hplain
      · exact hplain
    · rw [if_neg hstart]
      exact hplain

theorem groupsOf_spec {octets : List ℕ} (hoctets : ∀ octet ∈ octets, octet < 256) :
    (groupsOf octets).length = octets.length / 2 ∧ ∀ group ∈ groupsOf octets, group < 65536 := by
  fun_induction groupsOf octets with
  | case1 high low rest ih =>
    obtain ⟨hlength, hgroups⟩ := ih fun octet hmem ↦
      hoctets octet (List.mem_cons_of_mem _ (List.mem_cons_of_mem _ hmem))
    have hhigh := hoctets high (List.mem_cons_self ..)
    have hlow := hoctets low (List.mem_cons_of_mem _ (List.mem_cons_self ..))
    refine ⟨by rw [List.length_cons, hlength, List.length_cons, List.length_cons]; omega, ?_⟩
    rw [List.forall_mem_cons]
    exact ⟨by omega, hgroups⟩
  | case2 octets hshort =>
    refine ⟨?_, fun _ hmem ↦ absurd hmem List.not_mem_nil⟩
    match octets, hshort with
    | [], _ => rfl
    | [octet], _ => simp
    | high :: low :: rest, hshort => exact absurd rfl (hshort high low rest)

/-- A text that is an address, also without the white space around it. -/
def IsAddressText (text : String) : Prop := text ≠ "" ∧ (ipAddress (strip text)).isSome = true

theorem isSpace_of_isHexChar {char : Char} (hchar : IsHexChar char) : isSpace char = false := by
  have hle : char.toNat ≤ 102 ∧ 48 ≤ char.toNat := by
    unfold IsHexChar hexValue? at hchar
    split_ifs at hchar with hdigit hlower hupper
    · simp only [Char.le_def, UInt32.le_iff_toNat_le] at hdigit
      exact ⟨hdigit.2.trans (by decide), hdigit.1⟩
    · simp only [Char.le_def, UInt32.le_iff_toNat_le] at hlower
      exact ⟨hlower.2.trans (by decide), le_trans (by decide) hlower.1⟩
    · simp only [Char.le_def, UInt32.le_iff_toNat_le] at hupper
      exact ⟨hupper.2.trans (by decide), le_trans (by decide) hupper.1⟩
    · exact absurd hchar Bool.false_ne_true
  simp only [isSpace, decide_eq_false_iff_not]
  omega

/-- Joined parts have no white space. -/
theorem isSpace_of_mem_joinChars {separator : Char} {parts : List (List Char)}
    (hparts : ∀ part ∈ parts, IsPartText part) (hseparator : isSpace separator = false) :
    ∀ char ∈ joinChars separator parts, isSpace char = false := by
  intro char hchar
  rcases mem_joinChars hchar with rfl | ⟨part, hpart, hmem⟩
  · exact hseparator
  · rcases hparts part hpart char hmem with hhex | rfl
    · exact isSpace_of_isHexChar hhex
    · decide

theorem isPartText_toDigits {groups : List ℕ} :
    ∀ text ∈ groups.map (Nat.toDigits 16), IsPartText text := by
  intro text htext char hchar
  obtain ⟨group, -, rfl⟩ := List.mem_map.mp htext
  exact Or.inl (isHexChar_of_mem_toDigits (by decide) le_rfl hchar)

theorem isPartText_lowTexts (abbreviated : ℕ) (groups : List ℕ) :
    ∀ text ∈ lowTexts abbreviated groups, IsPartText text := by
  intro text htext
  have hdigits : ∀ group, IsPartText (Nat.toDigits 16 group) := fun group char hchar ↦
    Or.inl (isHexChar_of_mem_toDigits (by decide) le_rfl hchar)
  have hquad := fun high low ↦ isPartText_dottedQuad (quadOctets high low)
  unfold lowTexts at htext
  split at htext
  · split_ifs at htext <;> simp only [List.mem_cons, List.not_mem_nil, or_false] at htext
    · exact htext ▸ hquad _ _
    · rcases htext with rfl | rfl <;> exact hdigits _
  · split_ifs at htext <;> simp only [List.mem_cons, List.not_mem_nil, or_false] at htext
    · rcases htext with rfl | rfl
      · exact hdigits _
      · exact hquad _ _
    · rcases htext with rfl | rfl | rfl <;> exact hdigits _
  · exact isPartText_toDigits text htext

theorem isSpace_of_mem_ntopGroups {groups : List ℕ} {char : Char}
    (hchar : char ∈ ntopGroups groups) : isSpace char = false := by
  unfold ntopGroups at hchar
  dsimp only at hchar
  split_ifs at hchar
  · exact isSpace_of_mem_joinChars isPartText_toDigits (by decide) char hchar
  all_goals
    refine isSpace_of_mem_joinChars (fun part hpart ↦ ?_) (by decide) char hchar
    rcases List.mem_append.mp hpart with hmem | hmem
    · exact forall_mem_endTexts isPartText_toDigits part hmem
    · rcases List.mem_cons.mp hmem with rfl | hmem
      · exact fun _ hnil ↦ absurd hnil List.not_mem_nil
      · first
        | exact forall_mem_endTexts (isPartText_lowTexts _ _) part hmem
        | exact forall_mem_endTexts isPartText_toDigits part hmem

/-- A text without white space that parses. -/
theorem isAddressText_ofList {chars : List Char} (hspace : ∀ char ∈ chars, isSpace char = false)
    (hparsed : (ipAddress (String.ofList chars)).isSome = true) :
    IsAddressText (String.ofList chars) := by
  refine ⟨fun hempty ↦ ?_, ?_⟩
  · rw [hempty] at hparsed
    exact absurd hparsed (by decide)
  · rwa [strip, String.toList_ofList, stripChars_eq_self hspace]

/-- What `inet_ntop` prints for four octets, `ip_address` accepts. -/
theorem isAddressText_inetNtopV4 {octets : List ℕ} (hlength : octets.length = 4)
    (hoctets : ∀ octet ∈ octets, octet < 256) : IsAddressText (inetNtopV4 octets) := by
  refine isAddressText_ofList (isSpace_of_mem_joinChars (fun part hpart char hchar ↦ ?_)
    (by decide)) ?_
  · obtain ⟨octet, -, rfl⟩ := List.mem_map.mp hpart
    exact Or.inl (isHexChar_of_mem_toDigits (by decide) (by decide) hchar)
  · obtain ⟨value, hvalue⟩ :=
      Option.isSome_iff_exists.mp (isSome_parseIpv4_dottedQuad hlength hoctets)
    show (ipAddress (String.ofList (dottedQuad octets))).isSome = true
    rw [ipAddress, String.toList_ofList, hvalue]
    rfl

/-- What `inet_ntop` prints for sixteen octets, `ip_address` accepts. -/
theorem isAddressText_inetNtopV6 {octets : List ℕ} (hlength : octets.length = 16)
    (hoctets : ∀ octet ∈ octets, octet < 256) : IsAddressText (inetNtopV6 octets) := by
  obtain ⟨hgroupsLength, hgroups⟩ := groupsOf_spec hoctets
  rw [hlength] at hgroupsLength
  have hparsed := isSome_parseIpv6_ntopGroups hgroupsLength hgroups
  refine isAddressText_ofList (fun _ ↦ isSpace_of_mem_ntopGroups) ?_
  rw [ipAddress, String.toList_ofList]
  cases parseIpv4 (ntopGroups (groupsOf octets)) with
  | some value => rfl
  | none => rwa [Option.isSome_map]

end Lnmp.Foundation.IpAddress
