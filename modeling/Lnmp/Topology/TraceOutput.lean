import Mathlib.Data.List.Infix
import Lnmp.Foundation.InetNtop
import Lnmp.Foundation.JsonScan
import Lnmp.Foundation.Regex

/-!
# The output of traceroute

`_parse_trace_output` (`services/diagnostics.py`): the hops in what `traceroute` and `tracepath`
print. The text is read line by line with regular expressions, as `Regex` runs them. `none` is the
`ValueError` of `float` on a number that is none, such as two points in front of `ms`. The mean of
the round trip times, a computation with floats, is a parameter. Digits are the ASCII ones.

`tracerouteText` is the text that `traceroute -n` prints for the hops of a route. The parser reads
the hops back from it, whatever the header says and whichever probes were lost.
-/

set_option autoImplicit false
set_option relaxedAutoImplicit false

namespace Lnmp.Topology

open Lnmp.Foundation Lnmp.Foundation.PythonText Lnmp.Foundation.IpAddress
open Lnmp.Foundation.JsonScan (forall_mem_of_all)

/-! ### The parser -/

/-- A hop of the parsed output. -/
structure TraceHop where
  hop : ℤ
  ip : Option String
  rttMs : Option PyFloat
  deriving DecidableEq

/-- `^\s*(\d+)[:\s]\s*(.*)$`. -/
def hopPattern : Regex :=
  .seq (.star (.set isSpace)) (.seq (.group 1 (.plus (.set Char.isDigit)))
    (.seq (.set fun char ↦ char = ':' || isSpace char) (.seq (.star (.set isSpace))
      (.seq (.group 2 (.star (.set (· ≠ '\n')))) .atEnd))))

/-- `\d{1,3}`. -/
def octetPattern : Regex := .seq (.set Char.isDigit) (.atMost (.set Char.isDigit) 2)

/-- `(\d{1,3}(?:\.\d{1,3}){3})`. -/
def ipPattern : Regex :=
  .group 1 (.seq octetPattern (.times (.seq (.set (· = '.')) octetPattern) 3))

/-- `([\d\.]+)\s*ms`. -/
def rttPattern : Regex :=
  .seq (.group 1 (.plus (.set isNumeric))) (.seq (.star (.set isSpace)) (.literal ['m', 's']))

/-- The remainder of a line says that nothing replied. No character outside ASCII has a letter of
`no reply` as its lower case. -/
def isLost (remainder : List Char) : Bool :=
  "no reply".toList <:+: remainder.map Char.toLower ∨ remainder = ['*'] ∨
    remainder = ['*', ' ', '*'] ∨ remainder = ['*', ' ', '*', ' ', '*']

/-- The round trip times in the remainder of a line. -/
def rttMatches (remainder : List Char) : List (List Char) :=
  (rttPattern.findAll remainder).map fun rtt ↦ (rtt.group? 1).getD []

section Parser

variable (roundedMean : List PyFloat → PyFloat)

/-- The hop of a line, from its number and its remainder. -/
def hopOfRemainder (hopNum : ℤ) (remainder : List Char) : Option TraceHop :=
  if isLost remainder then some ⟨hopNum, none, none⟩
  else
    let hopIp := ((ipPattern.search? remainder).bind (·.group? 1)).map String.ofList
    if rttMatches remainder = [] then some ⟨hopNum, hopIp, none⟩
    else
      ((rttMatches remainder).mapM fun rtt ↦ parseFloat (String.ofList rtt)).map fun values ↦
        ⟨hopNum, hopIp, some (roundedMean values)⟩

/-- The hops so far, and the numbers seen. -/
structure TraceState where
  hops : List TraceHop
  seenHops : Finset ℤ

/-- The number and the remainder in a line. A number with too many digits for `int` is none. -/
def parseHopLine (line : List Char) : Option (ℤ × List Char) := do
  let hopMatch ← hopPattern.matchAt? line
  let hopNum ← parseInt (String.ofList ((hopMatch.group? 1).getD []))
  return (hopNum, stripChars ((hopMatch.group? 2).getD []))

/-- Read one line. -/
def addLine (state : TraceState) (line : List Char) : Option TraceState :=
  if stripChars line = [] ∨ "traceroute".toList.isPrefixOf (stripChars line) then some state
  else
    match parseHopLine (stripChars line) with
    | none => some state
    | some (hopNum, remainder) =>
      if hopNum ∈ state.seenHops then some state
      else (hopOfRemainder roundedMean hopNum remainder).map fun hop ↦
        ⟨state.hops ++ [hop], insert hopNum state.seenHops⟩

/-- `_parse_trace_output`. -/
def parseTraceOutput (stdout : List Char) : Option (List TraceHop) :=
  ((splitLines stdout).foldlM (addLine roundedMean) ⟨[], ∅⟩).map TraceState.hops

end Parser

/-! ### What every parsed hop is -/

/-- The text of an address: four groups of one to three digits. -/
def IsAddressText (text : String) : Prop :=
  ∃ groups : List (List Char), groups.length = 4 ∧
    (∀ group ∈ groups, 1 ≤ group.length ∧ group.length ≤ 3 ∧ ∀ char ∈ group, char.isDigit = true) ∧
    text.toList = joinChars '.' groups

theorem mem_language_octetPattern {word : List Char} (hword : word ∈ octetPattern.language) :
    1 ≤ word.length ∧ word.length ≤ 3 ∧ ∀ char ∈ word, char.isDigit = true := by
  obtain ⟨front, ⟨char, hchar, rfl⟩, back, hback, rfl⟩ := Language.mem_mul.mp hword
  obtain ⟨hlength, hdigits⟩ := Regex.length_le_of_mem_atMost_set hback
  exact ⟨Nat.succ_le_succ (Nat.zero_le _), Nat.succ_le_succ hlength,
    List.forall_mem_cons.mpr ⟨hchar, hdigits⟩⟩

/-- Groups behind separators are the rest of a joined text. -/
theorem joinChars_cons_eq_flatten (separator : Char) (part : List Char)
    (parts : List (List Char)) :
    joinChars separator (part :: parts) = part ++ (parts.map (separator :: ·)).flatten := by
  induction parts generalizing part with
  | nil => simp [joinChars]
  | cons next parts ih => rw [joinChars, ih, List.map_cons, List.flatten_cons, List.cons_append]

theorem isAddressText_of_mem_language {word : List Char} (hword : word ∈ ipPattern.language) :
    IsAddressText (String.ofList word) := by
  obtain ⟨first, hfirst, back, hback, rfl⟩ := Language.mem_mul.mp hword
  obtain ⟨parts, hlength, hparts, rfl⟩ := Regex.exists_parts_of_mem_times hback
  have hgroups : ∀ part ∈ parts, ∃ group ∈ octetPattern.language, part = '.' :: group := by
    intro part hpart
    obtain ⟨dot, ⟨char, hchar, rfl⟩, group, hgroup, rfl⟩ := Language.mem_mul.mp (hparts part hpart)
    exact ⟨group, hgroup, by rw [of_decide_eq_true hchar, List.singleton_append]⟩
  have hmap : parts = (parts.map List.tail).map ('.' :: ·) := by
    rw [List.map_map]
    refine (List.map_id parts).symm.trans (List.map_congr_left fun part hpart ↦ ?_)
    obtain ⟨group, -, rfl⟩ := hgroups part hpart
    rfl
  refine ⟨first :: parts.map List.tail, by simp [hlength], ?_, ?_⟩
  · rw [List.forall_mem_cons]
    refine ⟨mem_language_octetPattern hfirst, fun group hgroup ↦ ?_⟩
    obtain ⟨part, hpart, rfl⟩ := List.mem_map.mp hgroup
    obtain ⟨digits, hdigits, rfl⟩ := hgroups part hpart
    exact mem_language_octetPattern hdigits
  · rw [String.toList_ofList, joinChars_cons_eq_flatten, ← hmap]

/-- What the address pattern finds has the form of an address. -/
theorem isAddressText_of_search? {remainder : List Char} {ip : String}
    (hip : ((ipPattern.search? remainder).bind (·.group? 1)).map String.ofList = some ip) :
    IsAddressText ip := by
  obtain ⟨word, hword, rfl⟩ := Option.map_eq_some_iff.mp hip
  obtain ⟨attempt, hsearch, hgroup⟩ := Option.bind_eq_some_iff.mp hword
  obtain ⟨-, behind, -, hmatch⟩ := Regex.exists_matchAt?_of_search? hsearch
  rcases Regex.mem_groupLanguage_of_matchAt? hmatch hgroup with ⟨-, hword⟩ | hword
  · exact isAddressText_of_mem_language hword
  · exact absurd hword (Regex.notMem_groupLanguage (by decide) word)

/-- The number of a hop is written in digits. -/
theorem isDigit_of_group? {line word : List Char} {attempt : Regex.Attempt}
    (hmatch : hopPattern.matchAt? line = some attempt) (hgroup : attempt.group? 1 = some word) :
    ∀ char ∈ word, char.isDigit = true := by
  rcases Regex.mem_groupLanguage_of_matchAt? hmatch hgroup with
    hword | (⟨-, hword⟩ | hword) | hword
  · exact absurd hword (Regex.notMem_groupLanguage (by decide) word)
  · exact (Regex.forall_of_mem_plus_set hword).2
  · exact absurd hword (Regex.notMem_groupLanguage (by decide) word)
  · exact absurd hword (Regex.notMem_groupLanguage (by decide) word)

theorem nonneg_of_parseHopLine {line remainder : List Char} {hopNum : ℤ}
    (hparse : parseHopLine line = some (hopNum, remainder)) : 0 ≤ hopNum := by
  obtain ⟨hopMatch, hmatch, hparse⟩ := Option.bind_eq_some_iff.mp hparse
  obtain ⟨number, hnumber, hparse⟩ := Option.bind_eq_some_iff.mp hparse
  obtain ⟨rfl, -⟩ := Prod.mk.inj (Option.some.inj hparse)
  refine nonneg_of_parseInt ?_ hnumber
  cases hgroup : hopMatch.group? 1 with
  | none => exact fun char hchar ↦ absurd hchar List.not_mem_nil
  | some word => exact isDigit_of_group? hmatch hgroup

section Parsed

variable {roundedMean : List PyFloat → PyFloat}

/-- The hop of a line has the number of the line, and an address if any. -/
theorem hopOfRemainder_eq_some {hopNum : ℤ} {remainder : List Char} {hop : TraceHop}
    (hhop : hopOfRemainder roundedMean hopNum remainder = some hop) :
    hop.hop = hopNum ∧ ∀ ip ∈ hop.ip, IsAddressText ip := by
  rw [hopOfRemainder] at hhop
  dsimp only at hhop
  split_ifs at hhop
  · obtain rfl := Option.some.inj hhop
    exact ⟨rfl, fun ip hip ↦ absurd hip (Option.some_ne_none ip).symm⟩
  · obtain rfl := Option.some.inj hhop
    exact ⟨rfl, fun ip hip ↦ isAddressText_of_search? hip⟩
  · obtain ⟨values, -, rfl⟩ := Option.map_eq_some_iff.mp hhop
    exact ⟨rfl, fun ip hip ↦ isAddressText_of_search? hip⟩

/-- The hops have different numbers, which are not negative, and addresses if any. -/
def WellFormed (hops : List TraceHop) : Prop :=
  (hops.map TraceHop.hop).Nodup ∧ ∀ hop ∈ hops, 0 ≤ hop.hop ∧ ∀ ip ∈ hop.ip, IsAddressText ip

/-- The hops so far are well formed, and their numbers are the numbers seen. -/
structure TraceState.Valid (state : TraceState) : Prop where
  wellFormed : WellFormed state.hops
  seen : ∀ hopNum, hopNum ∈ state.seenHops ↔ hopNum ∈ state.hops.map TraceHop.hop

theorem valid_empty : TraceState.Valid ⟨[], ∅⟩ :=
  ⟨⟨List.nodup_nil, fun _ hhop ↦ absurd hhop List.not_mem_nil⟩, fun _ ↦ by simp⟩

theorem TraceState.Valid.addLine {state next : TraceState} (hvalid : state.Valid)
    {line : List Char} (hline : addLine roundedMean state line = some next) : next.Valid := by
  rw [Topology.addLine] at hline
  split_ifs at hline with hskip
  · obtain rfl := Option.some.inj hline
    exact hvalid
  · split at hline
    · obtain rfl := Option.some.inj hline
      exact hvalid
    · rename_i hopNum remainder hparse
      split_ifs at hline with hseen
      · obtain rfl := Option.some.inj hline
        exact hvalid
      · obtain ⟨hop, hhop, rfl⟩ := Option.map_eq_some_iff.mp hline
        obtain ⟨rfl, hip⟩ := hopOfRemainder_eq_some hhop
        refine ⟨⟨?_, ?_⟩, fun number ↦ ?_⟩
        · rw [List.map_append, List.map_singleton, List.nodup_append_comm, List.singleton_append,
            List.nodup_cons]
          exact ⟨fun hmem ↦ hseen ((hvalid.seen _).mpr hmem), hvalid.wellFormed.1⟩
        · intro other hother
          rcases List.mem_append.mp hother with hother | hother
          · exact hvalid.wellFormed.2 other hother
          · rw [List.mem_singleton.mp hother]
            exact ⟨nonneg_of_parseHopLine hparse, hip⟩
        · rw [Finset.mem_insert, hvalid.seen, List.map_append, List.mem_append,
            List.map_singleton, List.mem_singleton, or_comm]

theorem TraceState.Valid.foldlM_addLine {lines : List (List Char)} {state last : TraceState}
    (hvalid : state.Valid) (hlast : lines.foldlM (Topology.addLine roundedMean) state = some last) :
    last.Valid := by
  induction lines generalizing state with
  | nil =>
    obtain rfl := Option.some.inj hlast
    exact hvalid
  | cons line lines ih =>
    obtain ⟨next, hnext, hlast⟩ := Option.bind_eq_some_iff.mp hlast
    exact ih (hvalid.addLine hnext) hlast

end Parsed

/-- Whatever a command prints, the parsed hops are well formed. -/
theorem wellFormed_parseTraceOutput (roundedMean : List PyFloat → PyFloat) (stdout : List Char) :
    ∀ hops ∈ parseTraceOutput roundedMean stdout, WellFormed hops := by
  intro hops hparse
  obtain ⟨last, hlast, rfl⟩ := Option.map_eq_some_iff.mp hparse
  exact (valid_empty.foldlM_addLine hlast).wellFormed

/-- What `tracepath` prints when it reports the first hop twice and the second one is silent. -/
def tracepathText : List Char :=
  " 1:  10.0.0.1   0.5ms\n 1:  10.0.0.1   0.4ms pmtu 1500\n 2:  no reply\n".toList

theorem wellFormed_parseTraceOutput_tracepath :
    ∃ hops ∈ parseTraceOutput (fun _ ↦ .nonFinite) tracepathText,
      hops.length = 2 ∧ WellFormed hops := by
  obtain ⟨hops, hparse⟩ := Option.isSome_iff_exists.mp
    (by decide +kernel : (parseTraceOutput (fun _ ↦ .nonFinite) tracepathText).isSome = true)
  have hlength : ∀ parsed ∈ parseTraceOutput (fun _ ↦ .nonFinite) tracepathText,
      parsed.length = 2 := by
    decide +kernel
  exact ⟨hops, hparse, hlength hops hparse, wellFormed_parseTraceOutput _ _ hops hparse⟩

/-! ### What traceroute prints -/

/-- The characters of the notes behind a time, such as `!H` for a host that cannot be reached. -/
def noteChars : List Char := "!ABCHNPQSTUVX".toList

/-- The reply to a probe. -/
structure ProbeReply where
  octets : List ℕ
  rtt : ℚ
  note : List Char
  octets_length : octets.length = 4
  octets_lt : ∀ octet ∈ octets, octet < 256
  rtt_nonneg : 0 ≤ rtt
  note_chars : ∀ char ∈ note, char ∈ noteChars

/-- The probes of one hop, of which some are lost. -/
structure HopProbes where
  number : ℕ
  probes : List (Option ProbeReply)
  number_lt : number < 256
  probes_ne : probes ≠ []

/-- The address of a reply, where it is not that of the last one. -/
def addressText (last : Option (List ℕ)) (reply : ProbeReply) : List Char :=
  if last = some reply.octets then [] else ' ' :: dottedQuad reply.octets

/-- The time of a reply. -/
def ProbeReply.timeText (reply : ProbeReply) : List Char := (formatMilli reply.rtt).toList

/-- The note of a reply. -/
def ProbeReply.noteText (reply : ProbeReply) : List Char :=
  if reply.note = [] then [] else ' ' :: reply.note

/-- The text of the probes of a hop, behind the replies so far. -/
def probesText : Option (List ℕ) → List (Option ProbeReply) → List Char
  | _, [] => []
  | last, none :: probes => [' ', '*'] ++ probesText last probes
  | last, some reply :: probes =>
    addressText last reply ++ ([' ', ' '] ++ ((reply.timeText ++ [' ', 'm', 's']) ++
      (reply.noteText ++ probesText (some reply.octets) probes)))

/-- The line of a hop. -/
def hopLine (hop : HopProbes) : List Char :=
  (if hop.number < 10 then [' '] else []) ++
    (Nat.toDigits 10 hop.number ++ ' ' :: probesText none hop.probes)

/-- What `traceroute -n` prints for a route. -/
def tracerouteText (header : List Char) (hops : List HopProbes) : List Char :=
  ("traceroute".toList ++ header) ++ '\n' :: (hops.flatMap fun hop ↦ hopLine hop ++ ['\n'])

/-- The replies of a hop. -/
def HopProbes.replies (hop : HopProbes) : List ProbeReply := hop.probes.reduceOption

/-- What a hop is: its number, the first address that replied, and the mean of the times. -/
def HopProbes.traceHop (roundedMean : List PyFloat → PyFloat) (hop : HopProbes) : TraceHop where
  hop := hop.number
  ip := hop.replies.head?.map fun reply ↦ String.ofList (dottedQuad reply.octets)
  rttMs :=
    if hop.replies = [] then none
    else some (roundedMean (hop.replies.map fun reply ↦ toPyFloat ((milli reply.rtt : ℚ) / 1000)))

/-! ### The characters of a line -/

/-- The characters behind the number of a hop. -/
def lineChars : List Char := "0123456789 .*ms".toList ++ noteChars

theorem mem_lineChars_of_isDigit {char : Char} (hdigit : char.isDigit = true) :
    char ∈ lineChars := by
  have hrange : 48 ≤ char.toNat ∧ char.toNat ≤ 57 := by
    simpa [Char.isDigit, Char.le_def, UInt32.le_iff_toNat_le] using hdigit
  have hall : ∀ code < 10, Char.ofNat (48 + code) ∈ lineChars := by decide
  have hchar := hall (char.toNat - 48) (by omega)
  rwa [Nat.add_sub_cancel' hrange.1, Char.ofNat_toNat] at hchar

theorem isNumeric_of_mem_dottedQuad {octets : List ℕ} {char : Char}
    (hchar : char ∈ dottedQuad octets) : isNumeric char = true := by
  rcases mem_joinChars hchar with rfl | ⟨part, hpart, hmem⟩
  · decide
  · obtain ⟨octet, -, rfl⟩ := List.mem_map.mp hpart
    rw [isNumeric, isDigit_of_mem_toDigits hmem, Bool.true_or]

theorem ProbeReply.isNumeric_of_mem_timeText {reply : ProbeReply} {char : Char}
    (hchar : char ∈ reply.timeText) : isNumeric char = true :=
  isNumeric_of_mem_formatMilli reply.rtt_nonneg hchar

theorem mem_lineChars_of_isNumeric {char : Char} (hchar : isNumeric char = true) :
    char ∈ lineChars := by
  rcases Bool.or_eq_true_iff.mp hchar with hdigit | hdot
  · exact mem_lineChars_of_isDigit hdigit
  · rw [of_decide_eq_true hdot]
    decide

theorem ProbeReply.mem_of_mem_noteText {reply : ProbeReply} {char : Char}
    (hchar : char ∈ reply.noteText) : char = ' ' ∨ char ∈ noteChars := by
  rw [noteText] at hchar
  split_ifs at hchar
  · exact absurd hchar List.not_mem_nil
  · exact (List.mem_cons.mp hchar).imp_right (reply.note_chars char)

theorem mem_lineChars_of_mem_probesText {last : Option (List ℕ)}
    {probes : List (Option ProbeReply)} {char : Char} (hchar : char ∈ probesText last probes) :
    char ∈ lineChars := by
  induction probes generalizing last with
  | nil => exact absurd hchar List.not_mem_nil
  | cons probe probes ih =>
    cases probe with
    | none =>
      rw [probesText, List.mem_append] at hchar
      exact hchar.elim (fun hmem ↦ (by decide : [' ', '*'] ⊆ lineChars) hmem) ih
    | some reply =>
      rw [probesText] at hchar
      simp only [List.mem_append] at hchar
      rcases hchar with haddress | hspace | (htime | hunit) | hnote | hrest
      · rw [addressText] at haddress
        split_ifs at haddress
        · exact absurd haddress List.not_mem_nil
        · rcases List.mem_cons.mp haddress with rfl | hmem
          · decide
          · exact mem_lineChars_of_isNumeric (isNumeric_of_mem_dottedQuad hmem)
      · exact (by decide : [' ', ' '] ⊆ lineChars) hspace
      · exact mem_lineChars_of_isNumeric (ProbeReply.isNumeric_of_mem_timeText htime)
      · exact (by decide : [' ', 'm', 's'] ⊆ lineChars) hunit
      · rcases ProbeReply.mem_of_mem_noteText hnote with rfl | hmem
        · decide
        · exact List.mem_append_right _ hmem
      · exact ih hrest

theorem mem_lineChars_of_probesText_eq {probes : List (Option ProbeReply)} {remainder : List Char}
    (htext : probesText none probes = ' ' :: remainder) : ∀ char ∈ remainder, char ∈ lineChars := by
  intro char hchar
  have hmem : char ∈ probesText none probes := by
    rw [htext]
    exact List.mem_cons_of_mem _ hchar
  exact mem_lineChars_of_mem_probesText hmem

/-! ### What the patterns find in a line -/

theorem startsIn_ipPattern : ipPattern.StartsIn Char.isDigit :=
  (((Regex.startsIn_set _).seq _).seq _).group 1

theorem startsIn_rttPattern : rttPattern.StartsIn isNumeric :=
  (((Regex.startsIn_set _).seq _).group 1).seq _

theorem matchAt?_octetPattern {octet : ℕ} (hoctet : octet < 256) {rest : List Char}
    (hrest : ∀ char ∈ rest.head?, char.isDigit = false) :
    octetPattern.matchAt? (Nat.toDigits 10 octet ++ rest) = some ⟨[], rest⟩ := by
  have hlength : (Nat.toDigits 10 octet).length ≤ 3 :=
    (Nat.length_toDigits_le_iff (by decide) (by decide)).mpr (by omega)
  have hdigits : ∀ char ∈ Nat.toDigits 10 octet, char.isDigit = true :=
    fun _ ↦ isDigit_of_mem_toDigits
  obtain ⟨first, others, hcons⟩ := List.exists_cons_of_ne_nil
    (Nat.toDigits_ne_nil (n := octet) (b := 10))
  rw [hcons] at hlength hdigits ⊢
  rw [List.forall_mem_cons] at hdigits
  exact Regex.matchAt?_seq (Regex.matchAt?_set hdigits.1 _)
    (Regex.matchAt?_atMost_set hdigits.2 (Nat.le_of_succ_le_succ hlength) hrest)

theorem matchAt?_times_octetPattern {octets : List ℕ} (hoctets : ∀ octet ∈ octets, octet < 256)
    {rest : List Char} (hrest : ∀ char ∈ rest.head?, char.isDigit = false) :
    (Regex.times (.seq (.set (· = '.')) octetPattern) octets.length).matchAt?
      (((octets.map (Nat.toDigits 10)).map ('.' :: ·)).flatten ++ rest) = some ⟨[], rest⟩ := by
  induction octets with
  | nil => rfl
  | cons octet octets ih =>
    rw [List.forall_mem_cons] at hoctets
    have hhead : ∀ char ∈ (((octets.map (Nat.toDigits 10)).map ('.' :: ·)).flatten ++ rest).head?,
        char.isDigit = false := by
      cases octets with
      | nil => exact hrest
      | cons next others => exact Regex.forall_head?_cons (by decide) _
    have hdot : (Regex.set (· = '.')).matchAt? ('.' :: (Nat.toDigits 10 octet ++
        (((octets.map (Nat.toDigits 10)).map ('.' :: ·)).flatten ++ rest))) = some ⟨[], _⟩ :=
      Regex.matchAt?_set (decide_eq_true rfl) _
    have hoctet := Regex.matchAt?_seq hdot (matchAt?_octetPattern hoctets.1 hhead)
    have hall := Regex.matchAt?_seq hoctet (ih hoctets.2)
    rw [List.map_cons, List.map_cons, List.flatten_cons, List.append_assoc]
    exact hall

/-- The address pattern takes a printed address as a whole. -/
theorem matchAt?_ipPattern {octets : List ℕ} (hlength : octets.length = 4)
    (hoctets : ∀ octet ∈ octets, octet < 256) {rest : List Char}
    (hrest : ∀ char ∈ rest.head?, char.isDigit = false) :
    ipPattern.matchAt? (dottedQuad octets ++ rest) = some ⟨[(1, dottedQuad octets)], rest⟩ := by
  obtain ⟨first, others, rfl⟩ := List.exists_cons_of_length_eq_add_one hlength
  rw [List.forall_mem_cons] at hoctets
  have hcount : others.length = 3 := Nat.succ.inj hlength
  have hhead : ∀ char ∈ (((others.map (Nat.toDigits 10)).map ('.' :: ·)).flatten ++ rest).head?,
      char.isDigit = false := by
    obtain ⟨next, others, rfl⟩ := List.exists_cons_of_length_eq_add_one hcount
    exact Regex.forall_head?_cons (by decide) _
  have htimes := matchAt?_times_octetPattern hoctets.2 hrest
  rw [hcount] at htimes
  have hall := Regex.matchAt?_seq (matchAt?_octetPattern hoctets.1 hhead) htimes
  rw [← List.append_assoc, ← joinChars_cons_eq_flatten] at hall
  exact Regex.matchAt?_group 1 hall rfl

/-- The search finds the first address that replied. -/
theorem search?_probesText (probes : List (Option ProbeReply)) :
    (ipPattern.search? (probesText none probes)).bind (·.group? 1) =
      probes.reduceOption.head?.map fun reply ↦ dottedQuad reply.octets := by
  induction probes with
  | nil => rfl
  | cons probe probes ih =>
    cases probe with
    | none =>
      rw [probesText, startsIn_ipPattern.search?_append
        (forall_mem_of_all (by decide)), ih]
      rfl
    | some reply =>
      have hbehind : ∀ char ∈ ([' ', ' '] ++ ((reply.timeText ++ [' ', 'm', 's']) ++
          (reply.noteText ++ probesText (some reply.octets) probes))).head?,
          char.isDigit = false := Regex.forall_head?_cons (by decide) _
      rw [probesText, addressText, if_neg (Option.some_ne_none _).symm, List.cons_append,
        Regex.search?_cons_of_none (startsIn_ipPattern.matchAt?_cons (by decide) _),
        Regex.search?_of_matchAt?
          (matchAt?_ipPattern reply.octets_length reply.octets_lt hbehind)]
      rfl

theorem dropWhile_eq_self_of_head? {accepts : Char → Bool} {chars : List Char}
    (hhead : ∀ char ∈ chars.head?, accepts char = false) : chars.dropWhile accepts = chars := by
  cases chars with
  | nil => rfl
  | cons char rest => rw [List.dropWhile_cons_of_neg (by rw [hhead char rfl]; decide)]

/-- What is behind some numeric characters and the spaces behind them. -/
theorem dropWhile_number_spaces {number spaces rest : List Char}
    (hnumber : ∀ char ∈ number, isNumeric char = true)
    (hspaces : ∀ char ∈ spaces, isSpace char = true)
    (hhead : ∀ char ∈ (spaces ++ rest).head?, isNumeric char = false)
    (hrest : ∀ char ∈ rest.head?, isSpace char = false) :
    ((number ++ (spaces ++ rest)).dropWhile isNumeric).dropWhile isSpace = rest := by
  rw [List.dropWhile_append_of_pos hnumber, dropWhile_eq_self_of_head? hhead,
    List.dropWhile_append_of_pos hspaces, dropWhile_eq_self_of_head? hrest]

/-- No time starts in a number behind which another one stands. -/
theorem matchAt?_rttPattern_eq_none {number spaces rest : List Char}
    (hnumber : ∀ char ∈ number, isNumeric char = true) (hne : spaces ≠ [])
    (hspaces : ∀ char ∈ spaces, isSpace char = true)
    (hrest : ∀ char ∈ rest.head?, isNumeric char = true) :
    rttPattern.matchAt? (number ++ (spaces ++ rest)) = none := by
  refine Regex.matchAt?_eq_none fun word hword more htext ↦ ?_
  obtain ⟨taken, htaken, unit, hunit, rfl⟩ := Language.mem_mul.mp hword
  obtain ⟨blanks, hblanks, letters, hletters, rfl⟩ := Language.mem_mul.mp hunit
  obtain rfl : letters = ['m', 's'] := by
    obtain ⟨-, ⟨m, hm, rfl⟩, -, ⟨-, ⟨s, hs, rfl⟩, -, rfl, rfl⟩, rfl⟩ := hletters
    rw [of_decide_eq_true hm, of_decide_eq_true hs]
    rfl
  have hblanks := Regex.forall_of_mem_star_set hblanks
  have htime : ((taken ++ (blanks ++ (['m', 's'] ++ more))).dropWhile isNumeric).dropWhile isSpace =
      ['m', 's'] ++ more := by
    refine dropWhile_number_spaces (Regex.forall_of_mem_plus_set htaken).2 hblanks ?_ ?_
    · cases blanks with
      | nil => exact Regex.forall_head?_cons (by decide) _
      | cons space blanks =>
        exact Regex.forall_head?_cons
          (isNumeric_of_isSpace (hblanks space (List.mem_cons_self ..))) _
    · exact Regex.forall_head?_cons (by decide) _
  have hbehind : ((number ++ (spaces ++ rest)).dropWhile isNumeric).dropWhile isSpace = rest := by
    refine dropWhile_number_spaces hnumber hspaces ?_ fun char hchar ↦ ?_
    · obtain ⟨space, others, rfl⟩ := List.exists_cons_of_ne_nil hne
      intro char hchar
      obtain rfl := Option.some.inj hchar
      exact isNumeric_of_isSpace (hspaces space (List.mem_cons_self ..))
    · by_contra hspace
      have hnone := isNumeric_of_isSpace (Bool.eq_true_of_not_eq_false hspace)
      rw [hrest char hchar] at hnone
      exact Bool.noConfusion hnone
  rw [← htext, List.append_assoc, List.append_assoc, htime] at hbehind
  subst hbehind
  exact absurd (hrest 'm' rfl) (by decide)

/-- The time of a reply is found. -/
theorem matchAt?_rttPattern (reply : ProbeReply) (rest : List Char) :
    rttPattern.matchAt? ((reply.timeText ++ [' ', 'm', 's']) ++ rest) =
      some ⟨[(1, reply.timeText)], rest⟩ := by
  have hne : reply.timeText ≠ [] := formatMilli_ne_nil reply.rtt_nonneg
  have htime : (Regex.plus (.set isNumeric)).matchAt?
      (reply.timeText ++ ([' ', 'm', 's'] ++ rest)) = some ⟨[], [' ', 'm', 's'] ++ rest⟩ :=
    Regex.matchAt?_plus_set hne (fun _ ↦ ProbeReply.isNumeric_of_mem_timeText)
      (Regex.forall_head?_cons (by decide) _)
  have hspace : (Regex.star (.set isSpace)).matchAt? ([' '] ++ (['m', 's'] ++ rest)) =
      some ⟨[], ['m', 's'] ++ rest⟩ :=
    Regex.matchAt?_star_set (forall_mem_of_all (by decide)) (Regex.forall_head?_cons (by decide) _)
  rw [List.append_assoc]
  exact Regex.matchAt?_seq (Regex.matchAt?_group 1 htime rfl)
    (Regex.matchAt?_seq hspace (Regex.matchAt?_literal ['m', 's'] rest))

/-- No time is found in the address in front of a time. -/
theorem findAll_addressText (last : Option (List ℕ)) (reply : ProbeReply) {rest : List Char}
    (hrest : ∀ char ∈ rest.head?, isNumeric char = true) :
    rttPattern.findAll (addressText last reply ++ ([' ', ' '] ++ rest)) =
      rttPattern.findAll rest := by
  have hspaces : ∀ char ∈ [' ', ' '], isSpace char = true := forall_mem_of_all (by decide)
  have hnone : rttPattern.findAll ([' ', ' '] ++ rest) = rttPattern.findAll rest :=
    startsIn_rttPattern.findAll_append
      (fun char hchar ↦ isNumeric_of_isSpace (hspaces char hchar)) rest
  rw [addressText]
  split_ifs
  · exact hnone
  · rw [List.cons_append, Regex.findAll_cons_of_none (startsIn_rttPattern.matchAt?_cons rfl _),
      Regex.findAll_append_of_none _ fun before char behind hsplit ↦ ?_, hnone]
    have hnumeric : ∀ other ∈ char :: behind, isNumeric other = true := fun other hother ↦
      isNumeric_of_mem_dottedQuad (by rw [hsplit]; exact List.mem_append_right _ hother)
    rw [← List.cons_append]
    exact matchAt?_rttPattern_eq_none hnumeric (List.cons_ne_nil _ _) hspaces hrest

theorem isNumeric_of_mem_head?_timeText (reply : ProbeReply) (rest : List Char) :
    ∀ char ∈ (reply.timeText ++ rest).head?, isNumeric char = true := by
  have hne : reply.timeText ≠ [] := formatMilli_ne_nil reply.rtt_nonneg
  exact Regex.forall_head?_append hne (fun _ ↦ ProbeReply.isNumeric_of_mem_timeText) rest

/-- The times found in the text of the probes are those of the replies. -/
theorem rttMatches_probesText (last : Option (List ℕ)) (probes : List (Option ProbeReply)) :
    rttMatches (probesText last probes) = probes.reduceOption.map ProbeReply.timeText := by
  induction probes generalizing last with
  | nil => rfl
  | cons probe probes ih =>
    cases probe with
    | none =>
      rw [rttMatches, probesText, startsIn_rttPattern.findAll_append (forall_mem_of_all (by decide)),
        ← rttMatches, ih]
      rfl
    | some reply =>
      have hnote : ∀ char ∈ reply.noteText, isNumeric char = false := fun char hchar ↦
        (ProbeReply.mem_of_mem_noteText hchar).elim (by rintro rfl; decide)
          ((forall_mem_of_all (by decide) : ∀ char ∈ noteChars, isNumeric char = false) char)
      have hhead : ∀ char ∈ ((reply.timeText ++ [' ', 'm', 's']) ++
          (reply.noteText ++ probesText (some reply.octets) probes)).head?,
          isNumeric char = true := by
        rw [List.append_assoc]
        exact isNumeric_of_mem_head?_timeText reply _
      rw [rttMatches, probesText, findAll_addressText last reply hhead,
        Regex.findAll_of_matchAt? (List.append_ne_nil_of_right_ne_nil _ (List.cons_ne_nil _ _))
          (matchAt?_rttPattern reply _) rfl,
        startsIn_rttPattern.findAll_append hnote, List.map_cons, ← rttMatches, ih]
      rfl

/-! ### The round trip -/

/-- The text of the probes starts with a space, behind which something stands. -/
theorem exists_probesText {probes : List (Option ProbeReply)} (hne : probes ≠ []) :
    ∃ remainder, probesText none probes = ' ' :: remainder ∧ remainder ≠ [] ∧
      ∀ char ∈ remainder.head?, isSpace char = false := by
  cases probes with
  | nil => exact absurd rfl hne
  | cons probe probes =>
    cases probe with
    | none =>
      exact ⟨'*' :: probesText none probes, rfl, List.cons_ne_nil _ _,
        Regex.forall_head?_cons (by decide) _⟩
    | some reply =>
      have hquad : dottedQuad reply.octets ≠ [] := by
        obtain ⟨first, others, hcons⟩ :=
          List.exists_cons_of_length_eq_add_one reply.octets_length
        rw [hcons, dottedQuad, List.map_cons, joinChars_cons_eq_flatten]
        exact List.append_ne_nil_of_left_ne_nil Nat.toDigits_ne_nil _
      rw [probesText, addressText, if_neg (Option.some_ne_none _).symm, List.cons_append]
      refine ⟨_, rfl, List.append_ne_nil_of_left_ne_nil hquad _, fun char hchar ↦ ?_⟩
      rw [List.head?_append_of_ne_nil _ hquad] at hchar
      by_contra hspace
      have hnone := isNumeric_of_isSpace (Bool.eq_true_of_not_eq_false hspace)
      rw [isNumeric_of_mem_dottedQuad (List.mem_of_head? hchar)] at hnone
      exact Bool.noConfusion hnone

/-- A text does not end with a space. -/
def EndsDark (text : List Char) : Prop := ∀ char ∈ text.getLast?, isSpace char = false

theorem EndsDark.append {front back : List Char} (hfront : EndsDark front) (hback : EndsDark back) :
    EndsDark (front ++ back) := by
  intro char hchar
  rw [List.getLast?_append] at hchar
  cases hlast : back.getLast? with
  | none =>
    rw [hlast, Option.none_or] at hchar
    exact hfront char hchar
  | some last =>
    rw [hlast, Option.some_or] at hchar
    exact hback char (hlast.trans hchar)

theorem EndsDark.append_left {back : List Char} (hback : EndsDark back) (hne : back ≠ [])
    (front : List Char) : EndsDark (front ++ back) := by
  intro char hchar
  rw [List.getLast?_append_of_ne_nil front hne] at hchar
  exact hback char hchar

theorem endsDark_concat {char : Char} (hdark : isSpace char = false) (front : List Char) :
    EndsDark (front ++ [char]) := by
  intro other hother
  rw [List.getLast?_concat] at hother
  obtain rfl := Option.some.inj hother
  exact hdark

theorem ProbeReply.endsDark_noteText (reply : ProbeReply) : EndsDark reply.noteText := by
  rw [noteText]
  split_ifs with hnote
  · exact fun char hchar ↦ absurd hchar (Option.some_ne_none char).symm
  · refine EndsDark.append_left (fun char hchar ↦ ?_) hnote [' ']
    exact (forall_mem_of_all (by decide) : ∀ char ∈ noteChars, isSpace char = false) char
      (reply.note_chars char (List.mem_of_getLast? hchar))

/-- The text of the probes does not end with a space. -/
theorem endsDark_probesText (last : Option (List ℕ)) (probes : List (Option ProbeReply)) :
    EndsDark (probesText last probes) := by
  induction probes generalizing last with
  | nil => exact fun char hchar ↦ absurd hchar (Option.some_ne_none char).symm
  | cons probe probes ih =>
    cases probe with
    | none =>
      exact EndsDark.append (endsDark_concat (by decide) [' ']) (ih last)
    | some reply =>
      have htime : EndsDark (reply.timeText ++ [' ', 'm', 's']) :=
        EndsDark.append_left (endsDark_concat (by decide) [' ', 'm']) (List.cons_ne_nil _ _) _
      have hne : (reply.timeText ++ [' ', 'm', 's']) ++
          (reply.noteText ++ probesText (some reply.octets) probes) ≠ [] :=
        List.append_ne_nil_of_left_ne_nil
          (List.append_ne_nil_of_right_ne_nil _ (List.cons_ne_nil _ _)) _
      have hback := htime.append (reply.endsDark_noteText.append (ih (some reply.octets)))
      rw [probesText]
      exact (hback.append_left hne [' ', ' ']).append_left (List.cons_ne_nil _ _) _

/-- The pattern of a line takes the number, and what is behind the spaces. -/
theorem matchAt?_hopPattern {digits remainder : List Char} (hne : digits ≠ [])
    (hdigits : ∀ char ∈ digits, char.isDigit = true)
    (hhead : ∀ char ∈ remainder.head?, isSpace char = false)
    (hbreak : ∀ char ∈ remainder, char ≠ '\n') :
    hopPattern.matchAt? (digits ++ ' ' :: ' ' :: remainder) =
      some ⟨[(1, digits), (2, remainder)], []⟩ := by
  have hfront : (Regex.star (.set isSpace)).matchAt? ([] ++ (digits ++ ' ' :: ' ' :: remainder)) =
      some ⟨[], digits ++ ' ' :: ' ' :: remainder⟩ :=
    Regex.matchAt?_star_set (fun char hchar ↦ absurd hchar List.not_mem_nil)
      (Regex.forall_head?_append hne (fun char hchar ↦ isSpace_of_isDigit (hdigits char hchar)) _)
  have hnumber : (Regex.plus (.set Char.isDigit)).matchAt? (digits ++ ' ' :: ' ' :: remainder) =
      some ⟨[], ' ' :: ' ' :: remainder⟩ :=
    Regex.matchAt?_plus_set hne hdigits (Regex.forall_head?_cons (by decide) _)
  have hspaces : (Regex.star (.set isSpace)).matchAt? ([' '] ++ remainder) =
      some ⟨[], remainder⟩ :=
    Regex.matchAt?_star_set (forall_mem_of_all (by decide)) hhead
  have hremainder : (Regex.star (.set (· ≠ '\n'))).matchAt? (remainder ++ []) = some ⟨[], []⟩ :=
    Regex.matchAt?_star_set (fun char hchar ↦ decide_eq_true (hbreak char hchar))
      (fun char hchar ↦ absurd hchar (Option.some_ne_none char).symm)
  have hgroup := Regex.matchAt?_group 2 hremainder rfl
  rw [List.append_nil] at hgroup
  have hend : Regex.atEnd.matchAt? [] = some ⟨[], []⟩ := rfl
  have hseparator : (Regex.set fun char ↦ char = ':' || isSpace char).matchAt?
      (' ' :: ' ' :: remainder) = some ⟨[], ' ' :: remainder⟩ :=
    Regex.matchAt?_set (by decide) (' ' :: remainder)
  exact Regex.matchAt?_seq hfront (Regex.matchAt?_seq (Regex.matchAt?_group 1 hnumber rfl)
    (Regex.matchAt?_seq hseparator (Regex.matchAt?_seq hspaces (Regex.matchAt?_seq hgroup hend))))

/-- The number and the remainder of a printed line. -/
theorem exists_parseHopLine (hop : HopProbes) :
    ∃ remainder, probesText none hop.probes = ' ' :: remainder ∧
      stripChars (hopLine hop) = Nat.toDigits 10 hop.number ++ ' ' :: ' ' :: remainder ∧
      parseHopLine (stripChars (hopLine hop)) = some ((hop.number : ℤ), remainder) := by
  obtain ⟨remainder, htext, hne, hhead⟩ := exists_probesText hop.probes_ne
  have hdark : EndsDark remainder := by
    have hlast := endsDark_probesText none hop.probes
    rw [htext] at hlast
    intro char hchar
    refine hlast char ?_
    rw [← List.singleton_append, List.getLast?_append_of_ne_nil _ hne]
    exact hchar
  have hdigits : ∀ char ∈ Nat.toDigits 10 hop.number, char.isDigit = true :=
    fun _ ↦ isDigit_of_mem_toDigits
  have hdigitsNe : Nat.toDigits 10 hop.number ≠ [] := Nat.toDigits_ne_nil
  have hstrip : stripChars (hopLine hop) =
      Nat.toDigits 10 hop.number ++ ' ' :: ' ' :: remainder := by
    rw [hopLine, htext, stripChars_append]
    · refine stripChars_eq_self_of_ends (fun char hchar ↦ ?_) ?_
      · rw [List.head?_append_of_ne_nil _ hdigitsNe] at hchar
        exact isSpace_of_isDigit (hdigits char (List.mem_of_head? hchar))
      · exact (hdark.append_left hne [' ', ' ']).append_left (List.cons_ne_nil _ _) _
    · intro char hchar
      split_ifs at hchar
      · rw [List.mem_singleton.mp hchar]
        decide
      · exact absurd hchar List.not_mem_nil
  have hbreak : ∀ char ∈ remainder, char ≠ '\n' := fun char hchar ↦
    (forall_mem_of_all (by decide) : ∀ char ∈ lineChars, char ≠ '\n') char
      (mem_lineChars_of_probesText_eq htext char hchar)
  refine ⟨remainder, htext, hstrip, ?_⟩
  have hparse : ∀ hopMatch : Regex.Attempt, hopMatch.group? 1 = some (Nat.toDigits 10 hop.number) →
      hopMatch.group? 2 = some remainder →
      hopPattern.matchAt? (stripChars (hopLine hop)) = some hopMatch →
      parseHopLine (stripChars (hopLine hop)) = some ((hop.number : ℤ), remainder) := by
    intro hopMatch hnumber hremainder hmatch
    have hdecimal : hop.number < 10 ^ maxStrDigits :=
      (hop.number_lt.trans (by decide : 256 < 10 ^ 3)).trans_le
        (Nat.pow_le_pow_right (by decide) (by decide))
    simp only [parseHopLine, hmatch, hnumber, hremainder, Option.getD_some, Option.bind_eq_bind,
      Option.bind_some, parseInt_toDigits hdecimal, stripChars_eq_self_of_ends hhead hdark]
    rfl
  have hmatch := matchAt?_hopPattern hdigitsNe hdigits hhead hbreak
  rw [← hstrip] at hmatch
  exact hparse _ rfl rfl hmatch

section RoundTrip

variable (roundedMean : List PyFloat → PyFloat)

/-- A remainder that counts as lost has no time in it. -/
theorem rttMatches_of_isLost {remainder : List Char} (hlost : isLost remainder = true)
    (hchars : ∀ char ∈ remainder, char ∈ lineChars) : rttMatches remainder = [] := by
  rcases of_decide_eq_true hlost with hinfix | rfl | rfl | rfl
  · have hmem : 'y' ∈ remainder.map Char.toLower :=
      hinfix.subset (by decide)
    obtain ⟨char, hchar, hlower⟩ := List.mem_map.mp hmem
    exact absurd hlower
      ((forall_mem_of_all (by decide) : ∀ char ∈ lineChars, char.toLower ≠ 'y') char
        (hchars char hchar))
  · decide
  · decide
  · decide

/-- The times of the replies are read as floats. -/
theorem mapM_parseFloat_timeText (replies : List ProbeReply) :
    (replies.map ProbeReply.timeText).mapM (fun rtt ↦ parseFloat (String.ofList rtt)) =
      some (replies.map fun reply ↦ toPyFloat ((milli reply.rtt : ℚ) / 1000)) := by
  induction replies with
  | nil => rfl
  | cons reply replies ih =>
    have htime : parseFloat (String.ofList reply.timeText) =
        some (toPyFloat ((milli reply.rtt : ℚ) / 1000)) := by
      rw [ProbeReply.timeText, String.ofList_toList, parseFloat_formatMilli,
        if_neg (not_lt.mpr reply.rtt_nonneg)]
    rw [List.map_cons, List.mapM_cons, htime, ih]
    rfl

/-- The remainder of a printed line gives the hop. -/
theorem hopOfRemainder_eq (hop : HopProbes) {remainder : List Char}
    (htext : probesText none hop.probes = ' ' :: remainder) :
    hopOfRemainder roundedMean hop.number remainder = some (hop.traceHop roundedMean) := by
  have htimes : rttMatches remainder = hop.replies.map ProbeReply.timeText := by
    rw [HopProbes.replies, ← rttMatches_probesText none, htext, rttMatches, rttMatches,
      Regex.findAll_cons_of_none (startsIn_rttPattern.matchAt?_cons (by decide) _)]
  have hsearch : ((ipPattern.search? remainder).bind (·.group? 1)).map String.ofList =
      hop.replies.head?.map fun reply ↦ String.ofList (dottedQuad reply.octets) := by
    have hspace : ipPattern.matchAt? (' ' :: remainder) = none :=
      startsIn_ipPattern.matchAt?_cons (by decide) remainder
    rw [← Regex.search?_cons_of_none hspace, ← htext, search?_probesText, Option.map_map]
    rfl
  have hchars := mem_lineChars_of_probesText_eq htext
  rw [hopOfRemainder, HopProbes.traceHop]
  dsimp only
  rw [hsearch]
  simp only [htimes, List.map_eq_nil_iff, mapM_parseFloat_timeText]
  split_ifs with hlost hreplies hreplies
  · rw [hreplies]
    rfl
  · have hnone := rttMatches_of_isLost hlost hchars
    rw [htimes, List.map_eq_nil_iff] at hnone
    exact absurd hnone hreplies
  · rfl
  · rfl

/-- The stripped header starts as the header does. -/
theorem traceroute_isPrefixOf_stripChars (header : List Char) :
    "traceroute".toList.isPrefixOf (stripChars ("traceroute".toList ++ header)) = true := by
  have hword : ∀ char ∈ "traceroute".toList, isSpace char = false := forall_mem_of_all (by decide)
  have hfront : ("traceroute".toList ++ header).dropWhile isSpace =
      "traceroute".toList ++ header := by
    refine dropWhile_eq_self_of_head? fun char hchar ↦ hword char (List.mem_of_head? ?_)
    rw [List.head?_append_of_ne_nil _ (by decide : "traceroute".toList ≠ [])] at hchar
    exact hchar
  have hback : "traceroute".toList.reverse.dropWhile isSpace = "traceroute".toList.reverse :=
    dropWhile_eq_self_of_head? fun char hchar ↦ hword char
      (List.mem_reverse.mp (List.mem_of_head? hchar))
  rw [List.isPrefixOf_iff_prefix, stripChars, hfront, List.reverse_append, List.dropWhile_append]
  split_ifs
  · rw [hback, List.reverse_reverse]
  · rw [List.reverse_append, List.reverse_reverse]
    exact List.prefix_append ..

theorem addLine_header (state : TraceState) (header : List Char) :
    addLine roundedMean state ("traceroute".toList ++ header) = some state := by
  rw [addLine, if_pos (Or.inr (traceroute_isPrefixOf_stripChars header))]

/-- A printed line with a new number adds its hop. -/
theorem addLine_hopLine (state : TraceState) {hop : HopProbes}
    (hnew : (hop.number : ℤ) ∉ state.seenHops) :
    addLine roundedMean state (hopLine hop) = some
      ⟨state.hops ++ [hop.traceHop roundedMean], insert (hop.number : ℤ) state.seenHops⟩ := by
  obtain ⟨remainder, htext, hstrip, hparse⟩ := exists_parseHopLine hop
  have hskip : ¬ (stripChars (hopLine hop) = [] ∨
      "traceroute".toList.isPrefixOf (stripChars (hopLine hop)) = true) := by
    obtain ⟨first, others, hcons⟩ := List.exists_cons_of_ne_nil
      (Nat.toDigits_ne_nil (n := hop.number) (b := 10))
    have hfirst : first.isDigit = true :=
      isDigit_of_mem_toDigits (by rw [hcons]; exact List.mem_cons_self ..)
    rw [hstrip, hcons, List.cons_append]
    rintro (hnil | hword)
    · exact List.cons_ne_nil _ _ hnil
    · obtain ⟨rest, hrest⟩ := List.isPrefixOf_iff_prefix.mp hword
      obtain rfl : 't' = first := (List.cons.inj hrest).1
      exact absurd hfirst (by decide)
  rw [addLine, if_neg hskip, hparse]
  dsimp only
  rw [if_neg hnew, hopOfRemainder_eq roundedMean hop htext]
  rfl

/-- The printed lines add their hops. -/
theorem foldlM_addLine_hopLines (state : TraceState) {hops : List HopProbes}
    (hnumbers : (hops.map HopProbes.number).Nodup)
    (hnew : ∀ hop ∈ hops, (hop.number : ℤ) ∉ state.seenHops) :
    ((hops.map hopLine).foldlM (addLine roundedMean) state).map TraceState.hops =
      some (state.hops ++ hops.map (HopProbes.traceHop roundedMean)) := by
  induction hops generalizing state with
  | nil => rw [List.map_nil, List.map_nil, List.append_nil]; rfl
  | cons hop hops ih =>
    rw [List.map_cons, List.nodup_cons] at hnumbers
    rw [List.forall_mem_cons] at hnew
    rw [List.map_cons, List.foldlM_cons, addLine_hopLine roundedMean state hnew.1]
    refine (ih _ hnumbers.2 fun other hother ↦ ?_).trans ?_
    · rw [Finset.mem_insert, not_or]
      refine ⟨fun heq ↦ hnumbers.1 ?_, hnew.2 other hother⟩
      rw [← Int.ofNat_inj.mp heq]
      exact List.mem_map_of_mem hother
    · rw [List.map_cons, List.append_assoc, List.singleton_append]

theorem not_isLineBreak_of_mem_hopLine {hop : HopProbes} {char : Char} (hchar : char ∈ hopLine hop) :
    isLineBreak char = false := by
  have hmem : char ∈ lineChars := by
    rw [hopLine, List.mem_append, List.mem_append, List.mem_cons] at hchar
    rcases hchar with hpad | hdigit | rfl | htext
    · split_ifs at hpad
      · rw [List.mem_singleton.mp hpad]
        decide
      · exact absurd hpad List.not_mem_nil
    · exact mem_lineChars_of_isDigit (isDigit_of_mem_toDigits hdigit)
    · decide
    · exact mem_lineChars_of_mem_probesText htext
  exact (forall_mem_of_all (by decide) : ∀ char ∈ lineChars, isLineBreak char = false) char hmem

theorem splitLines_flatMap_hopLine (hops : List HopProbes) :
    splitLines (hops.flatMap fun hop ↦ hopLine hop ++ ['\n']) = hops.map hopLine := by
  induction hops with
  | nil => rfl
  | cons hop hops ih =>
    rw [List.flatMap_cons, List.append_assoc, List.singleton_append,
      splitLines_append fun _ ↦ not_isLineBreak_of_mem_hopLine, ih, List.map_cons]

theorem splitLines_tracerouteText {header : List Char}
    (hheader : ∀ char ∈ header, isLineBreak char = false) (hops : List HopProbes) :
    splitLines (tracerouteText header hops) =
      ("traceroute".toList ++ header) :: hops.map hopLine := by
  have hline : ∀ char ∈ "traceroute".toList ++ header, isLineBreak char = false := by
    intro char hchar
    rcases List.mem_append.mp hchar with hword | hrest
    · exact (forall_mem_of_all (by decide) :
        ∀ char ∈ "traceroute".toList, isLineBreak char = false) char hword
    · exact hheader char hrest
  exact (splitLines_append hline _).trans (congrArg _ (splitLines_flatMap_hopLine hops))

/-- The parser reads back the hops that `traceroute -n` prints. -/
theorem parseTraceOutput_tracerouteText {header : List Char}
    (hheader : ∀ char ∈ header, isLineBreak char = false) {hops : List HopProbes}
    (hnumbers : (hops.map HopProbes.number).Nodup) :
    parseTraceOutput roundedMean (tracerouteText header hops) =
      some (hops.map (HopProbes.traceHop roundedMean)) := by
  have hnew : ∀ hop ∈ hops, (hop.number : ℤ) ∉ (TraceState.mk [] ∅).seenHops :=
    fun hop _ ↦ Finset.notMem_empty (hop.number : ℤ)
  rw [parseTraceOutput, splitLines_tracerouteText hheader, List.foldlM_cons, addLine_header,
    Option.bind_eq_bind, Option.bind_some,
    foldlM_addLine_hopLines roundedMean (TraceState.mk [] ∅) hnumbers hnew, List.nil_append]

end RoundTrip

/-- A router that drops a probe is read from those that it answers. -/
theorem parseTraceOutput_lostProbe :
    ∃ hop : HopProbes, parseTraceOutput (fun _ ↦ .nonFinite)
        (tracerouteText " to 192.0.2.1, 30 hops max".toList [hop]) =
      some [⟨1, some (String.ofList (dottedQuad [10, 0, 0, 1])), some .nonFinite⟩] := by
  have hnote : ∀ char ∈ ([] : List Char), char ∈ noteChars :=
    fun _ hchar ↦ absurd hchar List.not_mem_nil
  refine ⟨⟨1, [none, some ⟨[10, 0, 0, 1], 3, [], rfl, by decide, by decide, hnote⟩],
    by decide, List.cons_ne_nil _ _⟩, ?_⟩
  exact parseTraceOutput_tracerouteText (fun _ ↦ .nonFinite) (forall_mem_of_all (by decide))
    (List.nodup_singleton 1)

end Lnmp.Topology
