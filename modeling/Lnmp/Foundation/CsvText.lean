import Lnmp.Foundation.IpAddress

/-!
# CSV texts

Rows as the writer of Python's `csv` module writes them in the dialect `excel`: fields are separated
by commas, a field with a comma, a quote or a line break is quoted with its quotes doubled, and a
row ends with a carriage return and a line feed. The only field of a row is quoted when it is empty.

Rows of two fields and more can be read back: a text is that of one list of rows only
(`rowTexts_inj`).
-/

set_option autoImplicit false
set_option relaxedAutoImplicit false

namespace Lnmp.Foundation.CsvText

open IpAddress

/-! ### Writing -/

/-- A field with this character is quoted. -/
def isSpecial (char : Char) : Bool := char = ',' || char = '"' || char = '\r' || char = '\n'

/-- A character between quotes. -/
def quotedChar (char : Char) : List Char := if char = '"' then ['"', '"'] else [char]

/-- A field in a row. -/
def fieldText (field : List Char) : List Char :=
  if field.any isSpecial then '"' :: (field.flatMap quotedChar ++ ['"']) else field

/-- `writer.writerow(fields)`. -/
def rowText (fields : List (List Char)) : List Char :=
  if fields = [[]] then ['"', '"', '\r', '\n']
  else joinChars ',' (fields.map fieldText) ++ ['\r', '\n']

example : rowText ["a,b".toList, "".toList, "c\"d".toList] = "\"a,b\",,\"c\"\"d\"\r\n".toList := by
  decide

/-! ### Reading back -/

/-- What stands behind a field: a comma or the end of the row. -/
def IsDelimited (text : List Char) : Prop := ∃ rest, text = ',' :: rest ∨ text = '\r' :: rest

section Fields

variable {first second firstRest secondRest : List Char}

theorem IsDelimited.head_ne_quote {text rest : List Char} (htext : IsDelimited text) :
    text ≠ '"' :: rest := by
  rintro rfl
  obtain ⟨other, hother | hother⟩ := htext
  · exact absurd (List.cons.inj hother).1 (by decide)
  · exact absurd (List.cons.inj hother).1 (by decide)

/-- A field without special characters ends at the first one behind it. -/
theorem takeWhile_append_of_isDelimited (hfirst : first.any isSpecial = false)
    (hrest : IsDelimited firstRest) :
    (first ++ firstRest).takeWhile (fun char ↦ !isSpecial char) = first := by
  have hplain : ∀ char ∈ first, (!isSpecial char) = true := by simpa using hfirst
  rw [List.takeWhile_append_of_pos hplain]
  obtain ⟨rest, rfl | rfl⟩ := hrest
  · rw [List.takeWhile_cons_of_neg (by decide), List.append_nil]
  · rw [List.takeWhile_cons_of_neg (by decide), List.append_nil]

/-- Between quotes a field ends at the first quote that is not doubled. -/
theorem quotedChars_append_inj (hfirst : IsDelimited firstRest) (hsecond : IsDelimited secondRest)
    (hsame : first.flatMap quotedChar ++ '"' :: firstRest =
      second.flatMap quotedChar ++ '"' :: secondRest) :
    first = second ∧ firstRest = secondRest := by
  induction first generalizing second with
  | nil =>
    cases second with
    | nil => exact ⟨rfl, (List.cons.inj hsame).2⟩
    | cons char others =>
      by_cases hquote : char = '"'
      · subst hquote
        exact absurd (List.cons.inj hsame).2 hfirst.head_ne_quote
      · rw [List.flatMap_cons, quotedChar, if_neg hquote] at hsame
        exact absurd (List.cons.inj hsame).1.symm hquote
  | cons char rest ih =>
    cases second with
    | nil =>
      by_cases hquote : char = '"'
      · subst hquote
        exact absurd (List.cons.inj hsame).2.symm hsecond.head_ne_quote
      · rw [List.flatMap_cons, quotedChar, if_neg hquote] at hsame
        exact absurd (List.cons.inj hsame).1 hquote
    | cons other others =>
      rw [List.flatMap_cons, List.flatMap_cons, quotedChar, quotedChar] at hsame
      by_cases hchar : char = '"'
      · by_cases hother : other = '"'
        · rw [if_pos hchar, if_pos hother] at hsame
          obtain ⟨rfl, hrests⟩ := ih (List.cons.inj (List.cons.inj hsame).2).2
          exact ⟨by rw [hchar, hother], hrests⟩
        · rw [if_pos hchar, if_neg hother] at hsame
          exact absurd (List.cons.inj hsame).1.symm hother
      · by_cases hother : other = '"'
        · rw [if_neg hchar, if_pos hother] at hsame
          exact absurd (List.cons.inj hsame).1 hchar
        · rw [if_neg hchar, if_neg hother] at hsame
          obtain ⟨hhead, htail⟩ := List.cons.inj hsame
          obtain ⟨rfl, hrests⟩ := ih htail
          exact ⟨by rw [hhead], hrests⟩

/-- A field without special characters is not quoted. -/
theorem append_ne_quote (hfirst : first.any isSpecial = false) (hrest : IsDelimited firstRest)
    (rest : List Char) : first ++ firstRest ≠ '"' :: rest := by
  cases first with
  | nil => exact hrest.head_ne_quote
  | cons char others =>
    intro hsame
    rw [(List.cons.inj hsame).1] at hfirst
    exact absurd hfirst (by simp [isSpecial])

/-- A field is known from the text that starts with it. -/
theorem fieldText_append_inj (hfirst : IsDelimited firstRest) (hsecond : IsDelimited secondRest)
    (hsame : fieldText first ++ firstRest = fieldText second ++ secondRest) :
    first = second ∧ firstRest = secondRest := by
  rw [fieldText, fieldText] at hsame
  cases hspecial : first.any isSpecial with
  | true =>
    cases hother : second.any isSpecial with
    | true =>
      rw [if_pos hspecial, if_pos hother] at hsame
      refine quotedChars_append_inj hfirst hsecond ?_
      simpa using (List.cons.inj hsame).2
    | false =>
      rw [if_pos hspecial, if_neg (by simp [hother])] at hsame
      exact absurd hsame.symm (append_ne_quote hother hsecond _)
  | false =>
    cases hother : second.any isSpecial with
    | true =>
      rw [if_neg (by simp [hspecial]), if_pos hother] at hsame
      exact absurd hsame (append_ne_quote hspecial hfirst _)
    | false =>
      rw [if_neg (by simp [hspecial]), if_neg (by simp [hother])] at hsame
      have hfields := congrArg (List.takeWhile fun char ↦ !isSpecial char) hsame
      rw [takeWhile_append_of_isDelimited hspecial hfirst,
        takeWhile_append_of_isDelimited hother hsecond] at hfields
      rw [hfields] at hsame
      exact ⟨hfields, List.append_cancel_left hsame⟩

end Fields

section Rows

variable {first second : List (List Char)} {firstRest secondRest : List Char}

theorem isDelimited_end (rest : List Char) : IsDelimited ('\r' :: rest) := ⟨rest, Or.inr rfl⟩

theorem isDelimited_comma (rest : List Char) : IsDelimited (',' :: rest) := ⟨rest, Or.inl rfl⟩

theorem joinChars_cons_cons (field next : List Char) (rest : List (List Char)) :
    joinChars ',' (field :: next :: rest) = field ++ ',' :: joinChars ',' (next :: rest) := rfl

/-- The fields of a row are known from the text that starts with it. -/
theorem joinChars_append_inj (hfirst : first ≠ []) (hsecond : second ≠ [])
    (hsame : joinChars ',' (first.map fieldText) ++ '\r' :: firstRest =
      joinChars ',' (second.map fieldText) ++ '\r' :: secondRest) :
    first = second ∧ firstRest = secondRest := by
  induction first generalizing second with
  | nil => exact absurd rfl hfirst
  | cons field rest ih =>
    cases second with
    | nil => exact absurd rfl hsecond
    | cons other others =>
      cases rest with
      | nil =>
        cases others with
        | nil =>
          obtain ⟨rfl, hrests⟩ :=
            fieldText_append_inj (isDelimited_end _) (isDelimited_end _) hsame
          exact ⟨rfl, (List.cons.inj hrests).2⟩
        | cons next others =>
          rw [List.map_cons, List.map_cons, List.map_cons, joinChars_cons_cons, List.append_assoc]
            at hsame
          have hrests :=
            (fieldText_append_inj (isDelimited_end _) (isDelimited_comma _) hsame).2
          exact absurd (List.cons.inj hrests).1 (by decide)
      | cons next rest =>
        rw [List.map_cons, List.map_cons, joinChars_cons_cons, List.append_assoc] at hsame
        cases others with
        | nil =>
          have hrests :=
            (fieldText_append_inj (isDelimited_comma _) (isDelimited_end _) hsame).2
          exact absurd (List.cons.inj hrests).1 (by decide)
        | cons other' others =>
          rw [List.map_cons, List.map_cons, joinChars_cons_cons, List.append_assoc] at hsame
          obtain ⟨rfl, hrests⟩ :=
            fieldText_append_inj (isDelimited_comma _) (isDelimited_comma _) hsame
          obtain ⟨hrow, hrests⟩ := ih (List.cons_ne_nil _ _) (List.cons_ne_nil _ _)
            (List.cons.inj hrests).2
          exact ⟨by rw [hrow], hrests⟩

/-- A row of two fields and more is known from the text that starts with it. -/
theorem rowText_append_inj (hfirst : 2 ≤ first.length) (hsecond : 2 ≤ second.length)
    (hsame : rowText first ++ firstRest = rowText second ++ secondRest) :
    first = second ∧ firstRest = secondRest := by
  have hplain : ∀ fields : List (List Char), 2 ≤ fields.length →
      fields ≠ [] ∧ rowText fields = joinChars ',' (fields.map fieldText) ++ ['\r', '\n'] := by
    intro fields hlength
    have hne : fields ≠ [[]] := by
      rintro rfl
      exact absurd hlength (by decide)
    exact ⟨List.ne_nil_of_length_pos (by omega), by rw [rowText, if_neg hne]⟩
  obtain ⟨hfirst, hfirstText⟩ := hplain first hfirst
  obtain ⟨hsecond, hsecondText⟩ := hplain second hsecond
  rw [hfirstText, hsecondText, List.append_assoc, List.append_assoc] at hsame
  obtain ⟨hrow, hrests⟩ := joinChars_append_inj hfirst hsecond hsame
  exact ⟨hrow, (List.cons.inj hrests).2⟩

end Rows

/-- Rows of two fields and more are known from their text. -/
theorem rowTexts_inj {rows others : List (List (List Char))}
    (hrows : ∀ row ∈ rows, 2 ≤ row.length) (hothers : ∀ row ∈ others, 2 ≤ row.length)
    (hsame : rows.flatMap rowText = others.flatMap rowText) : rows = others := by
  have hne : ∀ row : List (List Char), rowText row ≠ [] := by
    intro row
    rw [rowText]
    split_ifs <;> simp
  induction rows generalizing others with
  | nil =>
    cases others with
    | nil => rfl
    | cons other others =>
      exact absurd (List.append_eq_nil_iff.mp hsame.symm).1 (hne other)
  | cons row rest ih =>
    cases others with
    | nil => exact absurd (List.append_eq_nil_iff.mp hsame).1 (hne row)
    | cons other others =>
      rw [List.flatMap_cons, List.flatMap_cons] at hsame
      obtain ⟨rfl, hrests⟩ := rowText_append_inj (hrows row (List.mem_cons_self ..))
        (hothers other (List.mem_cons_self ..)) hsame
      rw [ih (fun next hnext ↦ hrows next (List.mem_cons_of_mem _ hnext))
        (fun next hnext ↦ hothers next (List.mem_cons_of_mem _ hnext)) hrests]

end Lnmp.Foundation.CsvText
