import Lnmp.Foundation.Dict
import Lnmp.Foundation.JsonScan

/-!
# JSON values

`json.dumps` and `json.loads` of Python for the values of JSON, with the infinities and NaN, which
Python writes and reads as well. An integer of more digits than Python converts has no text. A
member that comes again replaces the value of the one before.

`loads_dumps` says that a value whose objects have different keys and whose strings are decoded is
read back from its text. The floats are a parameter: a `FloatCodec` writes them as numbers with a
fraction or an exponent, and reads them back.
-/

set_option autoImplicit false
set_option relaxedAutoImplicit false

namespace Lnmp.Foundation.JsonSyntax

open JsonText JsonScan PythonText

/-! ### Values -/

/-- A JSON value, over the finite floats. -/
inductive Json (F : Type)
  | null
  | bool (value : Bool)
  | int (value : ℤ)
  | float (value : F)
  | infinity (isNegative : Bool)
  | nan
  | string (text : PyString)
  | array (items : List (Json F))
  | object (members : List (PyString × Json F))

/-- `float.__repr__` of the finite floats, and `float` of the text of a number: `none` where it
overflows. -/
structure FloatCodec (F : Type) where
  repr : F → List Char
  ofText : List Char → Option F
  scanNumber_repr : ∀ value, scanNumber (repr value) = some (repr value, true, [])
  ofText_repr : ∀ value, ofText (repr value) = some value

/-- A float that is known by its text. -/
structure FloatText where
  text : List Char
  isFloat : scanNumber text = some (text, true, [])

/-- The floats by their texts. -/
def textCodec : FloatCodec FloatText where
  repr := FloatText.text
  ofText := fun text ↦
    if hfloat : scanNumber text = some (text, true, []) then some ⟨text, hfloat⟩ else none
  scanNumber_repr := FloatText.isFloat
  ofText_repr := fun value ↦ dif_pos value.isFloat

variable {F : Type} (codec : FloatCodec F)

/-! ### Writing -/

mutual

/-- `json.dumps`, `none` where it raises an error. -/
def dumps : Json F → Option (List Char)
  | .null => some "null".toList
  | .bool value => some (if value then "true".toList else "false".toList)
  | .int value => (formatInt value).map String.toList
  | .float value => some (codec.repr value)
  | .infinity isNegative => some (if isNegative then "-Infinity".toList else "Infinity".toList)
  | .nan => some "NaN".toList
  | .string text => some (dumpsString text)
  | .array items => (dumpsItems items).map dumpsArray
  | .object members => (dumpsMembers members).map dumpsObject

/-- The texts of the items of an array. -/
def dumpsItems : List (Json F) → Option (List (List Char))
  | [] => some []
  | item :: rest => (dumps item).bind fun text ↦ (dumpsItems rest).map (text :: ·)

/-- The keys of an object with the texts of their values. -/
def dumpsMembers : List (PyString × Json F) → Option (List (PyString × List Char))
  | [] => some []
  | (key, value) :: rest =>
    (dumps value).bind fun text ↦ (dumpsMembers rest).map ((key, text) :: ·)

end

/-! ### Reading -/

/-- The white space of JSON. -/
def isWhitespace (char : Char) : Bool := char ∈ [' ', '\t', '\n', '\r']

/-- The text behind white space. -/
def skipSpace (text : List Char) : List Char := text.dropWhile isWhitespace

/-- The values that are written as words. -/
def constants : List (List Char × Json F) :=
  [("null".toList, .null), ("true".toList, .bool true), ("false".toList, .bool false),
    ("NaN".toList, .nan), ("Infinity".toList, .infinity false),
    ("-Infinity".toList, .infinity true)]

/-- The next character behind white space, and what stands behind it. -/
def nextMark (text : List Char) : Option Char × List Char :=
  ((skipSpace text).head?, (skipSpace text).tail)

/-- A number or a word at the start of a text, and what stands behind it. -/
def scanScalar (text : List Char) : Option (Json F × List Char) :=
  match scanNumber text with
  | some (number, false, rest) =>
    (parseInt (String.ofList number)).map fun value ↦ (.int value, rest)
  | some (number, true, rest) =>
    some ((codec.ofText number).elim (.infinity (number.head? = some '-')) .float, rest)
  | none =>
    (constants.find? fun constant ↦ constant.1.isPrefixOf text).map fun constant ↦
      (constant.2, text.drop constant.1.length)

section Loops

variable (scan : List Char → Option (Json F × List Char))

/-- The loop of `JSONArray`, behind the bracket, for a number of rounds at most. -/
def scanItems : ℕ → List Char → Option (List (Json F) × List Char)
  | 0, _ => none
  | rounds + 1, text =>
    (scan text).bind fun item ↦
      let next := nextMark item.2
      if next.1 = some ']' then some ([item.1], next.2)
      else if next.1 = some ',' then
        (scanItems rounds (skipSpace next.2)).map fun items ↦ (item.1 :: items.1, items.2)
      else none

/-- The loop of `JSONObject`, behind the brace, for a number of rounds at most. -/
def scanMembers : ℕ → List Char → Option (List (PyString × Json F) × List Char)
  | 0, _ => none
  | _, [] => none
  | rounds + 1, char :: text =>
    if char = '"' then
      (scanString text).bind fun key ↦
        if (nextMark key.2).1 = some ':' then
          (scan (skipSpace (nextMark key.2).2)).bind fun value ↦
            let next := nextMark value.2
            if next.1 = some '\x7d' then some ([(key.1, value.1)], next.2)
            else if next.1 = some ',' then
              (scanMembers rounds (skipSpace next.2)).map fun members ↦
                ((key.1, value.1) :: members.1, members.2)
            else none
        else none
    else none

end Loops

/-- `scan_once`, up to a depth: the value at the start of a text, and what stands behind it. -/
def scanOnce : ℕ → List Char → Option (Json F × List Char)
  | 0, _ => none
  | _, [] => none
  | depth + 1, char :: rest =>
    if char = '"' then (scanString rest).map fun read ↦ (.string read.1, read.2)
    else if char = '[' then
      if (nextMark rest).1 = some ']' then some (.array [], (nextMark rest).2)
      else
        (scanItems (scanOnce depth) rest.length (skipSpace rest)).map fun read ↦
          (.array read.1, read.2)
    else if char = '\x7b' then
      if (nextMark rest).1 = some '\x7d' then some (.object [], (nextMark rest).2)
      else
        (scanMembers (scanOnce depth) rest.length (skipSpace rest)).map fun read ↦
          (.object (Dict.empty.update read.1).entries, read.2)
    else scanScalar codec (char :: rest)

/-- The character with which no JSON text may start. -/
def byteOrderMark : Char := Char.ofNat 0xFEFF

/-- `json.loads`, `none` where it raises an error. A level takes a character at least, so that the
text has no more levels than characters. -/
def loads (text : List Char) : Option (Json F) :=
  if text.head? = some byteOrderMark then none
  else
    (scanOnce codec text.length (skipSpace text)).bind fun read ↦
      if skipSpace read.2 = [] then some read.1 else none

/-! ### Values that are read back -/

/-- The keys of each object are different, and all strings are decoded. -/
inductive Json.IsValue : Json F → Prop
  | null : IsValue .null
  | bool (value : Bool) : IsValue (.bool value)
  | int (value : ℤ) : IsValue (.int value)
  | float (value : F) : IsValue (.float value)
  | infinity (isNegative : Bool) : IsValue (.infinity isNegative)
  | nan : IsValue .nan
  | string (text : PyString) (htext : IsDecoded text) : IsValue (.string text)
  | array (items : List (Json F)) (hitems : ∀ item ∈ items, IsValue item) : IsValue (.array items)
  | object (members : List (PyString × Json F)) (hkeys : (members.map Prod.fst).Nodup)
      (htexts : ∀ member ∈ members, IsDecoded member.1)
      (hvalues : ∀ member ∈ members, IsValue member.2) : IsValue (.object members)

/-! ### Parts of texts -/

/-- The text goes on with what can stand behind a value. -/
def EndsValue (rest : List Char) : Prop := ∀ char ∈ rest.head?, char ∈ [',', ']', '\x7d']

/-- The text starts neither with white space nor with a closing bracket or a byte order mark. -/
def StartsValue (text : List Char) : Prop :=
  ∃ char rest, text = char :: rest ∧ isWhitespace char = false ∧ char ∉ [']', byteOrderMark]

section Parts

variable {rest text : List Char} {parts : List (List Char)}

theorem endsValue_cons {char : Char} (hchar : char ∈ [',', ']', '\x7d']) (rest : List Char) :
    EndsValue (char :: rest) := by
  rintro other hother
  obtain rfl := Option.some.inj hother
  exact hchar

theorem EndsValue.endsNumber (hrest : EndsValue rest) : EndsNumber rest := by
  have hmarks : ∀ char ∈ [',', ']', '\x7d'], isNumberChar char = false :=
    forall_mem_of_all (by decide)
  exact fun char hchar ↦ hmarks char (hrest char hchar)

theorem skipSpace_cons {char : Char} (hchar : isWhitespace char = false) (rest : List Char) :
    skipSpace (char :: rest) = char :: rest :=
  List.dropWhile_cons_of_neg (by simp [hchar])

theorem skipSpace_space (rest : List Char) : skipSpace (' ' :: rest) = skipSpace rest :=
  List.dropWhile_cons_of_pos rfl

theorem nextMark_cons {char : Char} (hchar : isWhitespace char = false) (rest : List Char) :
    nextMark (char :: rest) = (some char, rest) := by
  rw [nextMark, skipSpace_cons hchar]
  rfl

theorem StartsValue.skipSpace (htext : StartsValue text) (rest : List Char) :
    skipSpace (text ++ rest) = text ++ rest := by
  obtain ⟨char, behind, rfl, hchar, -⟩ := htext
  exact skipSpace_cons hchar _

theorem StartsValue.ne_nil (htext : StartsValue text) : text ≠ [] := by
  obtain ⟨char, behind, rfl, -⟩ := htext
  exact List.cons_ne_nil _ _

theorem joinParts_cons_append (part : List Char) (parts : List (List Char)) (rest : List Char) :
    ∃ behind, joinParts (part :: parts) ++ rest = part ++ behind := by
  cases parts with
  | nil => exact ⟨rest, rfl⟩
  | cons next parts =>
    rw [joinParts, List.append_assoc]
    exact ⟨_, rfl⟩

theorem skipSpace_joinParts {part : List Char} (hpart : StartsValue part)
    (parts : List (List Char)) (rest : List Char) :
    skipSpace (joinParts (part :: parts) ++ rest) = joinParts (part :: parts) ++ rest := by
  obtain ⟨behind, hbehind⟩ := joinParts_cons_append part parts rest
  rw [hbehind, hpart.skipSpace]

theorem length_le_length_joinParts {part : List Char} (hpart : part ∈ parts) :
    part.length ≤ (joinParts parts).length := by
  induction parts with
  | nil => exact absurd hpart List.not_mem_nil
  | cons first others ih =>
    cases others with
    | nil => rw [List.mem_singleton.mp hpart, joinParts]
    | cons next others =>
      rw [joinParts, List.length_append, List.length_cons, List.length_cons]
      rcases List.mem_cons.mp hpart with rfl | hmem
      · omega
      · have hlength := ih hmem
        omega

theorem length_parts_le (hparts : ∀ part ∈ parts, part ≠ []) :
    parts.length ≤ (joinParts parts).length := by
  induction parts with
  | nil => exact Nat.zero_le _
  | cons part others ih =>
    obtain ⟨hpart, hothers⟩ := List.forall_mem_cons.mp hparts
    have hpos := List.length_pos_iff.mpr hpart
    cases others with
    | nil => exact hpos
    | cons next others =>
      have hlength := ih hothers
      simp only [joinParts, List.length_append, List.length_cons] at hlength ⊢
      omega

end Parts

/-! ### Loops over parts -/

section LoopsBack

variable {scan : List Char → Option (Json F × List Char)} {rounds : ℕ}

/-- The value is read from its text, whatever stands behind it. -/
def ReadsBack (scan : List Char → Option (Json F × List Char)) (value : Json F)
    (text : List Char) : Prop :=
  StartsValue text ∧ ∀ rest, EndsValue rest → scan (text ++ rest) = some (value, rest)

/-- The items of an array are read back. -/
theorem scanItems_joinParts {items : List (Json F)} {parts : List (List Char)}
    (hparts : List.Forall₂ (ReadsBack scan) items parts) (hne : items ≠ [])
    (hrounds : items.length ≤ rounds) (rest : List Char) :
    scanItems scan rounds (joinParts parts ++ ']' :: rest) = some (items, rest) := by
  induction hparts generalizing rounds with
  | nil => exact absurd rfl hne
  | @cons item part items parts hpart hothers ih =>
    cases rounds with
    | zero => exact absurd hrounds (Nat.not_succ_le_zero _)
    | succ rounds =>
      rw [scanItems]
      cases hothers with
      | nil =>
        rw [joinParts, hpart.2 _ (endsValue_cons (by decide) rest), Option.bind_some,
          nextMark_cons (by decide)]
        exact if_pos rfl
      | @cons next nextPart items parts hnext hrest =>
        have hbehind := ih (List.cons_ne_nil _ _) (Nat.le_of_succ_le_succ hrounds)
        rw [joinParts, List.append_assoc, List.cons_append, List.cons_append,
          hpart.2 _ (endsValue_cons (by decide) _), Option.bind_some, nextMark_cons (by decide)]
        dsimp only
        rw [if_neg (by decide), if_pos rfl, skipSpace_space, skipSpace_joinParts hnext.1, hbehind]
        rfl

/-- A member is read back from its key and the text of its value. -/
def MemberReadsBack (scan : List Char → Option (Json F × List Char)) (member : PyString × Json F)
    (field : PyString × List Char) : Prop :=
  member.1 = field.1 ∧ IsDecoded field.1 ∧ ReadsBack scan member.2 field.2

/-- The text of a member. -/
def memberText (field : PyString × List Char) : List Char :=
  dumpsString field.1 ++ ':' :: ' ' :: field.2

theorem startsValue_memberText (field : PyString × List Char) : StartsValue (memberText field) :=
  ⟨'"', _, rfl, by decide, by decide⟩

/-- A key is read back, and the value behind it. -/
theorem scanMembers_memberText {member : PyString × Json F} {field : PyString × List Char}
    (hfield : MemberReadsBack scan member field) {rest : List Char} (hrest : EndsValue rest)
    (rounds : ℕ) :
    scanMembers scan (rounds + 1) (memberText field ++ rest) =
      if (nextMark rest).1 = some '\x7d' then some ([member], (nextMark rest).2)
      else if (nextMark rest).1 = some ',' then
        (scanMembers scan rounds (skipSpace (nextMark rest).2)).map fun members ↦
          (member :: members.1, members.2)
      else none := by
  obtain ⟨key, value⟩ := member
  obtain ⟨fieldKey, text⟩ := field
  obtain ⟨hkey, hdecoded, hstart, hvalue⟩ := hfield
  dsimp only at hkey hdecoded hstart hvalue
  subst hkey
  have htext : memberText (key, text) ++ rest =
      '"' :: (key.flatMap escape ++ '"' :: (':' :: ' ' :: (text ++ rest))) := by
    simp [memberText, dumpsString]
  rw [htext, scanMembers, if_pos rfl, scanString_escape hdecoded, Option.bind_some,
    nextMark_cons (by decide)]
  dsimp only
  rw [if_pos rfl, skipSpace_space, hstart.skipSpace, hvalue rest hrest, Option.bind_some]

/-- The members of an object are read back. -/
theorem scanMembers_joinParts {members : List (PyString × Json F)}
    {fields : List (PyString × List Char)}
    (hfields : List.Forall₂ (MemberReadsBack scan) members fields) (hne : members ≠ [])
    (hrounds : members.length ≤ rounds) (rest : List Char) :
    scanMembers scan rounds (joinParts (fields.map memberText) ++ '\x7d' :: rest) =
      some (members, rest) := by
  induction hfields generalizing rounds with
  | nil => exact absurd rfl hne
  | @cons member field members fields hfield hothers ih =>
    cases rounds with
    | zero => exact absurd hrounds (Nat.not_succ_le_zero _)
    | succ rounds =>
      cases hothers with
      | nil =>
        rw [List.map_singleton, joinParts,
          scanMembers_memberText hfield (endsValue_cons (by decide) rest),
          nextMark_cons (by decide)]
        exact if_pos rfl
      | @cons next nextField members fields hnext hrest =>
        have hbehind := ih (List.cons_ne_nil _ _) (Nat.le_of_succ_le_succ hrounds)
        rw [List.map_cons] at hbehind
        rw [List.map_cons, List.map_cons, joinParts, List.append_assoc, List.cons_append,
          List.cons_append, scanMembers_memberText hfield (endsValue_cons (by decide) _),
          nextMark_cons (by decide)]
        dsimp only
        rw [if_neg (by decide), if_pos rfl, skipSpace_space,
          skipSpace_joinParts (startsValue_memberText nextField), hbehind]
        rfl

end LoopsBack

/-! ### Round trip -/

section RoundTrip

variable {codec} {json : Json F} {text rest : List Char} {depth : ℕ}

theorem dumpsItems_eq_some {items : List (Json F)} {parts : List (List Char)}
    (hparts : dumpsItems codec items = some parts) :
    List.Forall₂ (fun item part ↦ dumps codec item = some part) items parts := by
  induction items generalizing parts with
  | nil =>
    obtain rfl := Option.some.inj hparts
    exact List.Forall₂.nil
  | cons item items ih =>
    rw [dumpsItems] at hparts
    obtain ⟨part, hpart, hmap⟩ := Option.bind_eq_some_iff.mp hparts
    obtain ⟨others, hothers, rfl⟩ := Option.map_eq_some_iff.mp hmap
    exact List.Forall₂.cons hpart (ih hothers)

theorem dumpsMembers_eq_some {members : List (PyString × Json F)}
    {fields : List (PyString × List Char)} (hfields : dumpsMembers codec members = some fields) :
    List.Forall₂ (fun member field ↦ member.1 = field.1 ∧ dumps codec member.2 = some field.2)
      members fields := by
  induction members generalizing fields with
  | nil =>
    obtain rfl := Option.some.inj hfields
    exact List.Forall₂.nil
  | cons member members ih =>
    rw [dumpsMembers] at hfields
    obtain ⟨part, hpart, hmap⟩ := Option.bind_eq_some_iff.mp hfields
    obtain ⟨others, hothers, rfl⟩ := Option.map_eq_some_iff.mp hmap
    exact List.Forall₂.cons ⟨rfl, hpart⟩ (ih hothers)

/-- A text that is scanned as a number starts with a sign or a digit. -/
theorem exists_cons_of_scanNumber {number : List Char × Bool × List Char}
    (hnumber : scanNumber text = some number) :
    ∃ char behind, text = char :: behind ∧ (char = '-' ∨ char.isDigit = true) := by
  cases text with
  | nil => exact absurd hnumber (Option.some_ne_none number).symm
  | cons char behind =>
    refine ⟨char, behind, rfl, ?_⟩
    by_cases hsign : char = '-'
    · exact Or.inl hsign
    · refine Or.inr ?_
      by_contra hdigit
      have hzero : char ≠ '0' := by
        rintro rfl
        exact hdigit rfl
      rw [scanNumber, takeSign, if_neg fun hmem ↦ hsign (List.mem_singleton.mp hmem)] at hnumber
      dsimp only at hnumber
      rw [scanInteger, if_neg hzero, if_neg hdigit] at hnumber
      exact absurd hnumber (Option.some_ne_none number).symm

theorem startsValue_of_scanNumber {number : List Char × Bool × List Char}
    (hnumber : scanNumber text = some number) : StartsValue text := by
  obtain ⟨char, behind, rfl, hchar⟩ := exists_cons_of_scanNumber hnumber
  have hspace : ∀ mark ∈ [' ', '\t', '\n', '\r'] ++ [']', byteOrderMark],
      mark ≠ '-' ∧ mark.isDigit = false := forall_mem_of_all (by decide)
  have hne : ∀ mark ∈ [' ', '\t', '\n', '\r'] ++ [']', byteOrderMark], char ≠ mark := by
    rintro mark hmark rfl
    rcases hchar with hsign | hdigit
    · exact (hspace char hmark).1 hsign
    · exact absurd hdigit (by rw [(hspace char hmark).2]; exact Bool.false_ne_true)
  exact ⟨char, behind, rfl,
    decide_eq_false fun hmem ↦ hne char (List.mem_append_left _ hmem) rfl,
    fun hmem ↦ hne char (List.mem_append_right _ hmem) rfl⟩

/-- A text that starts neither a string nor an array nor an object is a scalar. -/
theorem scanOnce_eq_scanScalar {char : Char} (hchar : char ∉ ['"', '[', '\x7b']) (depth : ℕ)
    (rest : List Char) :
    scanOnce codec (depth + 1) (char :: rest) = scanScalar codec (char :: rest) := by
  simp only [List.mem_cons, List.not_mem_nil, or_false, not_or] at hchar
  rw [scanOnce, if_neg hchar.1, if_neg hchar.2.1, if_neg hchar.2.2]

/-- A number is read up to its end. -/
theorem scanOnce_of_scanNumber {isFloat : Bool}
    (hnumber : scanNumber text = some (text, isFloat, [])) (hrest : EndsValue rest) (depth : ℕ) :
    scanOnce codec (depth + 1) (text ++ rest) =
      if isFloat then
        some ((codec.ofText text).elim (.infinity (text.head? = some '-')) .float, rest)
      else (parseInt (String.ofList text)).map fun value ↦ (.int value, rest) := by
  have hscan := scanNumber_append hrest.endsNumber text
  rw [hnumber, Option.map_some, List.nil_append] at hscan
  have hscalar : scanOnce codec (depth + 1) (text ++ rest) = scanScalar codec (text ++ rest) := by
    obtain ⟨char, behind, rfl, hchar⟩ := exists_cons_of_scanNumber hnumber
    have hmarks : ∀ mark ∈ ['"', '[', '\x7b'], mark ≠ '-' ∧ mark.isDigit = false :=
      forall_mem_of_all (by decide)
    refine scanOnce_eq_scanScalar (fun hmem ↦ ?_) depth _
    rcases hchar with hsign | hdigit
    · exact (hmarks char hmem).1 hsign
    · exact absurd hdigit (by rw [(hmarks char hmem).2]; exact Bool.false_ne_true)
  rw [hscalar, scanScalar, hscan]
  cases isFloat <;> rfl

theorem startsValue_dumps (hdumps : dumps codec json = some text) : StartsValue text := by
  cases json with
  | null => exact Option.some.inj hdumps ▸ ⟨_, _, rfl, by decide, by decide⟩
  | bool value => cases value <;> exact Option.some.inj hdumps ▸ ⟨_, _, rfl, by decide, by decide⟩
  | int value =>
    obtain ⟨digits, hdigits, rfl⟩ := Option.map_eq_some_iff.mp hdumps
    exact startsValue_of_scanNumber (scanNumber_formatInt hdigits)
  | float value =>
    exact Option.some.inj hdumps ▸ startsValue_of_scanNumber (codec.scanNumber_repr value)
  | infinity isNegative =>
    cases isNegative <;> exact Option.some.inj hdumps ▸ ⟨_, _, rfl, by decide, by decide⟩
  | nan => exact Option.some.inj hdumps ▸ ⟨_, _, rfl, by decide, by decide⟩
  | string value => exact Option.some.inj hdumps ▸ ⟨_, _, rfl, by decide, by decide⟩
  | array items =>
    obtain ⟨parts, -, rfl⟩ := Option.map_eq_some_iff.mp hdumps
    exact ⟨_, _, rfl, by decide, by decide⟩
  | object members =>
    obtain ⟨fields, -, rfl⟩ := Option.map_eq_some_iff.mp hdumps
    exact ⟨_, _, rfl, by decide, by decide⟩

section Forall₂

variable {First Second : Type} {firsts : List First} {seconds : List Second}
  {holds other : First → Second → Prop}

theorem forall₂_imp_of_mem (hall : List.Forall₂ holds firsts seconds)
    (himp : ∀ first ∈ firsts, ∀ second ∈ seconds, holds first second → other first second) :
    List.Forall₂ other firsts seconds := by
  induction hall with
  | nil => exact List.Forall₂.nil
  | cons hhead _ ih =>
    refine List.Forall₂.cons (himp _ (List.mem_cons_self ..) _ (List.mem_cons_self ..) hhead) ?_
    exact ih fun first hfirst second hsecond ↦
      himp first (List.mem_cons_of_mem _ hfirst) second (List.mem_cons_of_mem _ hsecond)

theorem forall_mem_of_forall₂ {property : Second → Prop} (hall : List.Forall₂ holds firsts seconds)
    (himp : ∀ first second, holds first second → property second) :
    ∀ second ∈ seconds, property second := by
  induction hall with
  | nil => exact fun _ hmem ↦ absurd hmem List.not_mem_nil
  | cons hhead _ ih => exact List.forall_mem_cons.mpr ⟨himp _ _ hhead, ih⟩

end Forall₂

section Containers

/-- The array is read back when its items are. -/
theorem scanOnce_dumpsArray {items : List (Json F)} {parts : List (List Char)}
    (hparts : List.Forall₂ (ReadsBack (scanOnce codec depth)) items parts) (rest : List Char) :
    scanOnce codec (depth + 1) (dumpsArray parts ++ rest) = some (.array items, rest) := by
  have htext : dumpsArray parts ++ rest = '[' :: (joinParts parts ++ ']' :: rest) := by
    simp [dumpsArray, bracketed]
  rw [htext, scanOnce, if_neg (by decide), if_pos rfl]
  cases hparts with
  | nil =>
    rw [joinParts, List.nil_append, nextMark_cons (by decide)]
    exact if_pos rfl
  | @cons item part items parts hpart hothers =>
    have hall := List.Forall₂.cons hpart hothers
    have hnonempty : ∀ other ∈ part :: parts, other ≠ [] :=
      forall_mem_of_forall₂ hall fun _ _ hback ↦ hback.1.ne_nil
    have hrounds : (item :: items).length ≤ (joinParts (part :: parts) ++ ']' :: rest).length := by
      rw [hall.length_eq, List.length_append]
      exact (length_parts_le hnonempty).trans (Nat.le_add_right _ _)
    have hskip := skipSpace_joinParts hpart.1 parts (']' :: rest)
    have hmark : (nextMark (joinParts (part :: parts) ++ ']' :: rest)).1 ≠ some ']' := by
      obtain ⟨behind, hbehind⟩ := joinParts_cons_append part parts (']' :: rest)
      obtain ⟨char, tail, rfl, -, hchar⟩ := hpart.1
      rw [nextMark, hskip, hbehind]
      exact fun hsame ↦ hchar (Option.some.inj hsame ▸ List.mem_cons_self ..)
    rw [if_neg hmark, hskip, scanItems_joinParts hall (List.cons_ne_nil _ _) hrounds]
    rfl

/-- The object is read back when its members are, and their keys are different. -/
theorem scanOnce_dumpsObject {members : List (PyString × Json F)}
    {fields : List (PyString × List Char)} (hkeys : (members.map Prod.fst).Nodup)
    (hfields : List.Forall₂ (MemberReadsBack (scanOnce codec depth)) members fields)
    (rest : List Char) :
    scanOnce codec (depth + 1) (dumpsObject fields ++ rest) = some (.object members, rest) := by
  have htext : dumpsObject fields ++ rest =
      '\x7b' :: (joinParts (fields.map memberText) ++ '\x7d' :: rest) := by
    rw [dumpsObject, bracketed, List.cons_append, List.append_assoc]
    rfl
  rw [htext, scanOnce, if_neg (by decide), if_neg (by decide), if_pos rfl]
  cases hfields with
  | nil =>
    rw [List.map_nil, joinParts, List.nil_append, nextMark_cons (by decide)]
    exact if_pos rfl
  | @cons member field members fields hfield hothers =>
    have hall := List.Forall₂.cons hfield hothers
    have hnonempty : ∀ text ∈ (field :: fields).map memberText, text ≠ [] := by
      intro text hmem
      obtain ⟨other, -, rfl⟩ := List.mem_map.mp hmem
      exact (startsValue_memberText other).ne_nil
    have hrounds : (member :: members).length ≤
        (joinParts ((field :: fields).map memberText) ++ '\x7d' :: rest).length := by
      have hlength := length_parts_le hnonempty
      rw [List.length_map, ← hall.length_eq] at hlength
      rw [List.length_append]
      exact hlength.trans (Nat.le_add_right _ _)
    have hskip := skipSpace_joinParts (startsValue_memberText field) (fields.map memberText)
      ('\x7d' :: rest)
    have hmark : (nextMark (joinParts (memberText field :: fields.map memberText) ++
        '\x7d' :: rest)).1 ≠ some '\x7d' := by
      obtain ⟨behind, hbehind⟩ := joinParts_cons_append (memberText field) (fields.map memberText)
        ('\x7d' :: rest)
      rw [nextMark, hskip, hbehind]
      exact fun hsame ↦ absurd (Option.some.inj hsame) (by decide)
    have hentries : (Dict.update Dict.empty (member :: members)).entries = member :: members :=
      Dict.entries_update_of_nodup Dict.empty hkeys
    rw [List.map_cons, if_neg hmark, hskip, ← List.map_cons,
      scanMembers_joinParts hall (List.cons_ne_nil _ _) hrounds, Option.map_some, hentries]

end Containers

theorem exists_depth (hdumps : dumps codec json = some text) (hdepth : text.length ≤ depth) :
    ∃ inner, depth = inner + 1 :=
  Nat.exists_eq_add_of_le'
    ((List.length_pos_iff.mpr (startsValue_dumps hdumps).ne_nil).trans_le hdepth)

/-- A value is read back from its text, whatever stands behind it. -/
theorem scanOnce_dumps (hjson : json.IsValue) (hdumps : dumps codec json = some text)
    (hdepth : text.length ≤ depth) (hrest : EndsValue rest) :
    scanOnce codec depth (text ++ rest) = some (json, rest) := by
  induction hjson generalizing text depth rest with
  | null =>
    obtain ⟨depth, rfl⟩ := exists_depth hdumps hdepth
    obtain rfl := Option.some.inj hdumps
    rfl
  | bool value =>
    obtain ⟨depth, rfl⟩ := exists_depth hdumps hdepth
    cases value with
    | false =>
      obtain rfl := Option.some.inj hdumps
      rfl
    | true =>
      obtain rfl := Option.some.inj hdumps
      rfl
  | int value =>
    obtain ⟨depth, rfl⟩ := exists_depth hdumps hdepth
    obtain ⟨digits, hdigits, rfl⟩ := Option.map_eq_some_iff.mp hdumps
    rw [scanOnce_of_scanNumber (scanNumber_formatInt hdigits) hrest, if_neg Bool.false_ne_true,
      String.ofList_toList, parseInt_formatInt hdigits, Option.map_some]
  | float value =>
    obtain ⟨depth, rfl⟩ := exists_depth hdumps hdepth
    obtain rfl := Option.some.inj hdumps
    rw [scanOnce_of_scanNumber (codec.scanNumber_repr value) hrest, if_pos rfl, codec.ofText_repr]
    rfl
  | infinity isNegative =>
    obtain ⟨depth, rfl⟩ := exists_depth hdumps hdepth
    cases isNegative with
    | false =>
      obtain rfl := Option.some.inj hdumps
      rfl
    | true =>
      obtain rfl := Option.some.inj hdumps
      rfl
  | nan =>
    obtain ⟨depth, rfl⟩ := exists_depth hdumps hdepth
    obtain rfl := Option.some.inj hdumps
    rfl
  | string value hvalue =>
    obtain ⟨depth, rfl⟩ := exists_depth hdumps hdepth
    obtain rfl := Option.some.inj hdumps
    have htext : dumpsString value ++ rest = '"' :: (value.flatMap escape ++ '"' :: rest) := by
      simp [dumpsString]
    rw [htext, scanOnce, if_pos rfl, scanString_escape hvalue, Option.map_some]
  | array items hitems ih =>
    obtain ⟨depth, rfl⟩ := exists_depth hdumps hdepth
    obtain ⟨parts, hparts, rfl⟩ := Option.map_eq_some_iff.mp hdumps
    refine scanOnce_dumpsArray (forall₂_imp_of_mem (dumpsItems_eq_some hparts) ?_) rest
    intro item hitem part hpart hitemDumps
    refine ⟨startsValue_dumps hitemDumps, fun behind hbehind ↦
      ih item hitem hitemDumps ?_ hbehind⟩
    have hlength := length_le_length_joinParts hpart
    rw [dumpsArray, bracketed, List.length_cons, List.length_append] at hdepth
    omega
  | object members hkeys htexts hvalues ih =>
    obtain ⟨depth, rfl⟩ := exists_depth hdumps hdepth
    obtain ⟨fields, hfields, rfl⟩ := Option.map_eq_some_iff.mp hdumps
    refine scanOnce_dumpsObject hkeys (forall₂_imp_of_mem (dumpsMembers_eq_some hfields) ?_) rest
    rintro member hmember field hfield ⟨hkey, hvalue⟩
    refine ⟨hkey, hkey ▸ htexts member hmember, startsValue_dumps hvalue, fun behind hbehind ↦
      ih member hmember hvalue ?_ hbehind⟩
    have hlength : (memberText field).length ≤ (joinParts (fields.map memberText)).length :=
      length_le_length_joinParts (List.mem_map_of_mem hfield)
    have htext : dumpsObject fields =
        '\x7b' :: (joinParts (fields.map memberText) ++ ['\x7d']) := rfl
    rw [htext, List.length_cons, List.length_append] at hdepth
    rw [memberText, List.length_append, List.length_cons, List.length_cons] at hlength
    omega

/-- What `json.dumps` writes, `json.loads` reads back. -/
theorem loads_dumps (hjson : json.IsValue) (hdumps : dumps codec json = some text) :
    loads codec text = some json := by
  have hstart := startsValue_dumps hdumps
  have hskip := hstart.skipSpace []
  rw [List.append_nil] at hskip
  have hscan : scanOnce codec text.length (text ++ []) = some (json, []) :=
    scanOnce_dumps hjson hdumps le_rfl fun _ hmem ↦ absurd hmem (Option.not_mem_none _)
  have hmark : text.head? ≠ some byteOrderMark := by
    obtain ⟨char, behind, rfl, -, hchar⟩ := hstart
    exact fun hsame ↦ hchar (Option.some.inj hsame ▸ List.mem_cons_of_mem _ (List.mem_cons_self ..))
  rw [List.append_nil] at hscan
  rw [loads, if_neg hmark, hskip, hscan]
  rfl

end RoundTrip

end Lnmp.Foundation.JsonSyntax
