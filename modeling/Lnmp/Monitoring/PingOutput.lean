import Lnmp.Foundation.JsonScan
import Lnmp.Foundation.Regex
import Lnmp.Monitoring.Ping

/-!
# The output of ping

`run_ping_cycle` and `run_system_ping_fallback` (`monitoring/ping.py`). A cycle tries a privileged
socket, an unprivileged one and at last the `ping` command, whose output is read with regular
expressions, as `Regex` runs them. `none` is an exception: the socket was refused, the command could
not be run, a group of digits is too long for `int`, or a group is no number for `float`. Digits are
the ASCII ones.

`pingText` is what the command prints, in the words of iputils or of busybox. The parser reads the
counts and the mean back from it (`runSystemPingFallback_pingText`), so a cycle gives the same
operational state whichever of the three ways answered (`fst_classify_runPingCycle`).
-/

set_option autoImplicit false
set_option relaxedAutoImplicit false

namespace Lnmp.Monitoring

open Lnmp.Foundation Lnmp.Foundation.PythonText
open Lnmp.Foundation.JsonScan (forall_mem_of_all)

/-! ### The patterns -/

/-- `(\d+)`. -/
def digitsPattern (index : ℕ) : Regex := .group index (.plus (.set Char.isDigit))

/-- `\s+`. -/
def blankPattern : Regex := .plus (.set isSpace)

/-- `(packets\s+)?`. -/
def packetsPattern (index : ℕ) : Regex :=
  .optional (.group index (.seq (.literal "packets".toList) blankPattern))

/-- `(\d+)\s+(packets\s+)?received`, with its groups numbered from `index` on. -/
def receivedPattern (index : ℕ) : Regex :=
  .seq (digitsPattern index) (.seq blankPattern
    (.seq (packetsPattern (index + 1)) (.literal "received".toList)))

/-- `(\d+) packets transmitted,\s+(\d+)\s+(packets\s+)?received`. -/
def statsPattern : Regex :=
  .seq (digitsPattern 1) (.seq (.literal " packets transmitted,".toList)
    (.seq blankPattern (receivedPattern 2)))

/-- `(\d+)\s+packets transmitted`. -/
def txPattern : Regex :=
  .seq (digitsPattern 1) (.seq blankPattern (.literal "packets transmitted".toList))

/-- `[\d\.]+/(?P<avg>[\d\.]+)/`. -/
def meanPattern : Regex :=
  .seq (.plus (.set isNumeric)) (.seq (.literal ['/'])
    (.seq (.group 1 (.plus (.set isNumeric))) (.literal ['/'])))

/-- The words of a summary of times, `\s+=\s+` and the times. -/
def timesPattern (summary columns : List Char) : Regex :=
  .seq (.literal summary) (.seq blankPattern (.seq (.literal columns) (.seq blankPattern
    (.seq (.literal ['=']) (.seq blankPattern meanPattern)))))

/-- `rtt\s+min/avg/max/mdev\s+=\s+[\d\.]+/(?P<avg>[\d\.]+)/`. -/
def rttPattern : Regex := timesPattern "rtt".toList "min/avg/max/mdev".toList

/-- `round-trip\s+min/avg/max\s+=\s+[\d\.]+/(?P<avg>[\d\.]+)/`. -/
def roundTripPattern : Regex := timesPattern "round-trip".toList "min/avg/max".toList

/-! ### The cycle -/

/-- What a cycle gives. -/
structure PingOutcome where
  successCount : ℤ
  failedCount : ℤ
  avgRttMs : Option PyFloat
  deriving DecidableEq

/-- The text of a group of a match. -/
def groupText (attempt : Regex.Attempt) (index : ℕ) : String :=
  String.ofList ((attempt.group? index).getD [])

/-- The number in the first group of a match, and 0 where there is no match. -/
def countOrZero : Option Regex.Attempt → Option ℤ
  | some attempt => parseInt (groupText attempt 1)
  | none => some 0

/-- The numbers of packets transmitted and received in the output. -/
def packetCounts (stdout : List Char) : Option (ℤ × ℤ) :=
  match statsPattern.search? stdout with
  | some stats => do
    let transmitted ← parseInt (groupText stats 1)
    let received ← parseInt (groupText stats 2)
    return (transmitted, received)
  | none => do
    let transmitted ← countOrZero (txPattern.search? stdout)
    let received ← countOrZero ((receivedPattern 1).search? stdout)
    return (transmitted, received)

/-- The mean of the times in the output, if any. -/
def averageRtt (stdout : List Char) : Option (Option PyFloat) :=
  match rttPattern.search? stdout with
  | some rtt => (parseFloat (groupText rtt 1)).map some
  | none =>
    match roundTripPattern.search? stdout with
    | some rtt => (parseFloat (groupText rtt 1)).map some
    | none => some none

/-- The outcome in the output of the command. -/
def parsePing (count : ℤ) (stdout : List Char) : Option PingOutcome := do
  let (transmitted, received) ← packetCounts stdout
  let sent := if transmitted = 0 then count else transmitted
  let avgRtt ← averageRtt stdout
  return ⟨received, max 0 (sent - received), avgRtt⟩

/-- `run_system_ping_fallback`, with the output of the command. -/
def runSystemPingFallback (count : ℤ) (stdout : Option (List Char)) : PingOutcome :=
  (stdout.bind (parsePing count)).getD ⟨0, count, none⟩

/-- What `async_ping` reports. -/
structure Host where
  packetsSent : ℤ
  packetsReceived : ℤ
  avgRtt : ℚ

/-- The outcome in a report of `async_ping`. -/
def Host.outcome (host : Host) : PingOutcome where
  successCount := host.packetsReceived
  failedCount := host.packetsSent - host.packetsReceived
  avgRttMs := if 0 < host.packetsReceived then some (.finite host.avgRtt) else none

/-- `run_ping_cycle`, with what a privileged and an unprivileged socket report, and the output of the
command. -/
def runPingCycle (asyncPing : Bool → Option Host) (stdout : Option (List Char)) (count : ℤ)
    (privileged : Bool) : PingOutcome :=
  match asyncPing privileged with
  | some host => host.outcome
  | none =>
    if privileged then
      match asyncPing false with
      | some host => host.outcome
      | none => runSystemPingFallback count stdout
    else runSystemPingFallback count stdout

/-! ### What the command prints -/

/-- The implementations of the command. -/
inductive PingFlavour
  | iputils
  | busybox
  deriving DecidableEq

/-- The times of the replies, in microseconds. -/
structure PingTimes where
  least : ℕ
  mean : ℕ
  most : ℕ
  deviation : ℕ
  mean_lt : mean < 2 ^ 63

/-- A time in milliseconds. -/
def millisText (micros : ℕ) : List Char := (formatMilli ((micros : ℚ) / 1000)).toList

/-- The words in front of `received`. -/
def PingFlavour.receivedWords : PingFlavour → List Char
  | .iputils => []
  | .busybox => "packets ".toList

/-- The word in front of the columns. -/
def PingFlavour.summary : PingFlavour → List Char
  | .iputils => "rtt".toList
  | .busybox => "round-trip".toList

/-- The names of the columns. -/
def PingFlavour.columns : PingFlavour → List Char
  | .iputils => "min/avg/max/mdev".toList
  | .busybox => "min/avg/max".toList

/-- The pattern that reads the line of times. -/
def PingFlavour.pattern (flavour : PingFlavour) : Regex :=
  timesPattern flavour.summary flavour.columns

/-- The column that only one of the implementations prints. -/
def PingFlavour.deviationText : PingFlavour → PingTimes → List Char
  | .iputils, times => ['/'] ++ millisText times.deviation
  | .busybox, _ => []

/-- The line of times. -/
def PingFlavour.timesText (flavour : PingFlavour) (times : PingTimes) : List Char :=
  flavour.summary ++ ([' '] ++ (flavour.columns ++ ([' '] ++ (['='] ++ ([' '] ++
    (millisText times.least ++ (['/'] ++ (millisText times.mean ++ (['/'] ++
      (millisText times.most ++ (flavour.deviationText times ++ " ms".toList)))))))))))

/-- What a run of the command prints: the lines of the replies, the counts with a note on duplicates,
errors and the total time, the times where something was received, and what follows them. -/
structure PingReport where
  flavour : PingFlavour
  replies : List Char
  transmitted : ℕ
  received : ℕ
  note : List Char
  times : Option PingTimes
  ending : List Char
  replies_lines : ∀ char ∈ replies.getLast?, char = '\n'
  replies_plain : ¬" packets transmitted,".toList <:+: replies ∧ ¬"min/avg/max".toList <:+: replies
  transmitted_lt : transmitted < 2 ^ 63
  received_lt : received < 2 ^ 63
  note_plain : '/' ∉ note
  ending_plain : '/' ∉ ending ∧ (flavour = .busybox → 'e' ∉ ending)

/-- The line of counts. -/
def PingReport.countsLine (report : PingReport) : List Char :=
  Nat.toDigits 10 report.transmitted ++ (" packets transmitted,".toList ++ ([' '] ++
    (Nat.toDigits 10 report.received ++ ([' '] ++ (report.flavour.receivedWords ++
      ("received".toList ++ (report.note ++ ['\n'])))))))

/-- What is behind the line of counts. -/
def PingReport.timesLine (report : PingReport) : List Char :=
  (report.times.map report.flavour.timesText).getD [] ++ report.ending

/-- The printed text. -/
def pingText (report : PingReport) : List Char :=
  report.replies ++ (report.countsLine ++ report.timesLine)

/-- The packets sent, which are those of the request where the command printed 0. -/
def PingReport.sent (report : PingReport) (count : ℤ) : ℤ :=
  if (report.transmitted : ℤ) = 0 then count else report.transmitted

/-- The outcome that the report is about. -/
def PingReport.outcome (report : PingReport) (count : ℤ) : PingOutcome where
  successCount := report.received
  failedCount := max 0 (report.sent count - report.received)
  avgRttMs := report.times.map fun times ↦ .finite ((times.mean : ℚ) / 1000)

/-! ### What the patterns find -/

theorem matchAt?_digitsPattern (index number : ℕ) {rest : List Char}
    (hrest : ∀ char ∈ rest.head?, char.isDigit = false) :
    (digitsPattern index).matchAt? (Nat.toDigits 10 number ++ rest) =
      some ⟨[(index, Nat.toDigits 10 number)], rest⟩ :=
  Regex.matchAt?_group index
    (Regex.matchAt?_plus_set Nat.toDigits_ne_nil (fun _ ↦ isDigit_of_mem_toDigits) hrest) rfl

theorem matchAt?_blankPattern {rest : List Char}
    (hrest : ∀ char ∈ rest.head?, isSpace char = false) :
    blankPattern.matchAt? ([' '] ++ rest) = some ⟨[], rest⟩ :=
  Regex.matchAt?_plus_set (List.cons_ne_nil _ _) (forall_mem_of_all (by decide)) hrest

/-- What the optional word in front of `received` takes. -/
def PingFlavour.receivedGroups (index : ℕ) : PingFlavour → List (ℕ × List Char)
  | .iputils => []
  | .busybox => [(index, "packets ".toList)]

theorem startsIn_literal_cons (char : Char) (rest : List Char) :
    (Regex.literal (char :: rest)).StartsIn (· = char) :=
  (Regex.startsIn_set _).seq _

theorem matchAt?_packetsPattern (index : ℕ) (flavour : PingFlavour) (rest : List Char) :
    (packetsPattern index).matchAt? (flavour.receivedWords ++ ("received".toList ++ rest)) =
      some ⟨flavour.receivedGroups index, "received".toList ++ rest⟩ := by
  cases flavour with
  | iputils =>
    exact Regex.matchAt?_optional_of_none
      ((((startsIn_literal_cons 'p' "ackets".toList).seq _).group index).matchAt?_cons
        (by decide) ("eceived".toList ++ rest))
  | busybox =>
    have hblank : blankPattern.matchAt? ([' '] ++ ("received".toList ++ rest)) =
        some ⟨[], "received".toList ++ rest⟩ :=
      matchAt?_blankPattern (Regex.forall_head?_cons (by decide) _)
    have hword : (Regex.seq (.literal "packets".toList) blankPattern).matchAt?
        ("packets ".toList ++ ("received".toList ++ rest)) = some ⟨[], "received".toList ++ rest⟩ :=
      Regex.matchAt?_seq (Regex.matchAt?_literal "packets".toList _) hblank
    exact Regex.matchAt?_orElse_left (Regex.matchAt?_group index hword rfl)

theorem isDigit_of_head?_toDigits (number : ℕ) (rest : List Char) :
    ∀ char ∈ (Nat.toDigits 10 number ++ rest).head?, char.isDigit = true :=
  Regex.forall_head?_append Nat.toDigits_ne_nil (fun _ ↦ isDigit_of_mem_toDigits) rest

theorem matchAt?_receivedPattern (index number : ℕ) (flavour : PingFlavour) (rest : List Char) :
    (receivedPattern index).matchAt? (Nat.toDigits 10 number ++ ([' '] ++ (flavour.receivedWords ++
        ("received".toList ++ rest)))) =
      some ⟨(index, Nat.toDigits 10 number) :: flavour.receivedGroups (index + 1), rest⟩ := by
  have hwords : ∀ char ∈ (flavour.receivedWords ++ ("received".toList ++ rest)).head?,
      isSpace char = false := by
    cases flavour <;> exact Regex.forall_head?_cons (by decide) _
  have hpackets := Regex.matchAt?_seq (matchAt?_packetsPattern (index + 1) flavour rest)
    (Regex.matchAt?_literal "received".toList rest)
  have hall := Regex.matchAt?_seq
    (matchAt?_digitsPattern index number (Regex.forall_head?_cons (by decide) _))
    (Regex.matchAt?_seq (matchAt?_blankPattern hwords) hpackets)
  refine hall.trans (congrArg some ?_)
  simp only [Regex.Attempt.behind, List.nil_append, List.append_nil, List.singleton_append]

/-- The counts are found at the front of their line. -/
theorem matchAt?_statsPattern (report : PingReport) (rest : List Char) :
    statsPattern.matchAt? (report.countsLine ++ rest) =
      some ⟨(1, Nat.toDigits 10 report.transmitted) :: (2, Nat.toDigits 10 report.received) ::
        report.flavour.receivedGroups 3, report.note ++ (['\n'] ++ rest)⟩ := by
  have hreceived := matchAt?_receivedPattern 2 report.received report.flavour
    (report.note ++ (['\n'] ++ rest))
  have hblank := matchAt?_blankPattern fun char hchar ↦
    isSpace_of_isDigit (isDigit_of_head?_toDigits report.received ([' '] ++
      (report.flavour.receivedWords ++ ("received".toList ++
        (report.note ++ (['\n'] ++ rest))))) char hchar)
  have hwords : ∀ char ∈ " packets transmitted,".toList, char.isDigit = false :=
    forall_mem_of_all (by decide)
  have hdigits := matchAt?_digitsPattern 1 report.transmitted
    (Regex.forall_head?_append (by decide : " packets transmitted,".toList ≠ []) hwords ([' '] ++
      (Nat.toDigits 10 report.received ++ ([' '] ++ (report.flavour.receivedWords ++
        ("received".toList ++ (report.note ++ (['\n'] ++ rest))))))))
  have hall := Regex.matchAt?_seq hdigits
    (Regex.matchAt?_seq (Regex.matchAt?_literal " packets transmitted,".toList _)
      (Regex.matchAt?_seq hblank hreceived))
  have hline : report.countsLine ++ rest = Nat.toDigits 10 report.transmitted ++
      (" packets transmitted,".toList ++ ([' '] ++ (Nat.toDigits 10 report.received ++ ([' '] ++
        (report.flavour.receivedWords ++ ("received".toList ++
          (report.note ++ (['\n'] ++ rest)))))))) := by
    simp only [PingReport.countsLine, List.append_assoc]
  rw [hline]
  refine hall.trans (congrArg some ?_)
  simp only [Regex.Attempt.behind, List.nil_append, List.singleton_append]

theorem matchAt?_numeric (micros : ℕ) {rest : List Char}
    (hrest : ∀ char ∈ rest.head?, isNumeric char = false) :
    (Regex.plus (.set isNumeric)).matchAt? (millisText micros ++ rest) = some ⟨[], rest⟩ :=
  Regex.matchAt?_plus_set (formatMilli_ne_nil (by positivity))
    (fun _ ↦ isNumeric_of_mem_formatMilli (by positivity)) hrest

/-- The mean is found at the front of a line of times. -/
theorem matchAt?_timesPattern (summary : List Char) {columns : List Char}
    (hcolumns : ∀ rest, ∀ char ∈ (columns ++ rest).head?, isSpace char = false) (least mean : ℕ)
    (rest : List Char) :
    (timesPattern summary columns).matchAt? (summary ++ ([' '] ++ (columns ++ ([' '] ++ (['='] ++
        ([' '] ++ (millisText least ++ (['/'] ++ (millisText mean ++ (['/'] ++ rest)))))))))) =
      some ⟨[(1, millisText mean)], rest⟩ := by
  have hslash : ∀ rest : List Char, ∀ char ∈ (['/'] ++ rest).head?, isNumeric char = false :=
    fun _ ↦ Regex.forall_head?_cons (by decide) _
  have hmean : (Regex.group 1 (.plus (.set isNumeric))).matchAt? (millisText mean ++
      (['/'] ++ rest)) = some ⟨[(1, millisText mean)], ['/'] ++ rest⟩ :=
    Regex.matchAt?_group 1 (matchAt?_numeric mean (hslash _)) rfl
  have htimes := Regex.matchAt?_seq (matchAt?_numeric least (hslash _))
    (Regex.matchAt?_seq (Regex.matchAt?_literal ['/'] _)
      (Regex.matchAt?_seq hmean (Regex.matchAt?_literal ['/'] rest)))
  have hnumber : ∀ char ∈ (millisText least ++ (['/'] ++ (millisText mean ++ (['/'] ++ rest)))).head?,
      isSpace char = false := by
    refine Regex.forall_head?_append (formatMilli_ne_nil (by positivity)) (fun char hchar ↦ ?_) _
    exact isSpace_of_isNumeric (isNumeric_of_mem_formatMilli (by positivity) hchar)
  have hall := Regex.matchAt?_seq (Regex.matchAt?_literal summary _)
    (Regex.matchAt?_seq (matchAt?_blankPattern (hcolumns _))
      (Regex.matchAt?_seq (Regex.matchAt?_literal columns _)
        (Regex.matchAt?_seq (matchAt?_blankPattern (Regex.forall_head?_cons (by decide) _))
          (Regex.matchAt?_seq (Regex.matchAt?_literal ['='] _)
            (Regex.matchAt?_seq (matchAt?_blankPattern hnumber) htimes)))))
  exact hall

/-! ### Searches in the printed text -/

theorem anchoredBy_statsPattern :
    statsPattern.AnchoredBy '\n' isSpace " packets transmitted,".toList := by
  intro word hword
  obtain ⟨digits, hdigits, behind, hbehind, rfl⟩ := Language.mem_mul.mp hword
  obtain ⟨anchor, hanchor, more, -, rfl⟩ := Language.mem_mul.mp hbehind
  obtain rfl := Regex.eq_of_mem_language_literal hanchor
  refine ⟨digits, [], more, rfl, fun hmem ↦ ?_, fun _ hchar ↦ absurd hchar List.not_mem_nil⟩
  exact absurd ((Regex.forall_of_mem_plus_set hdigits).2 _ hmem) (by decide)

theorem rttPattern_eq : rttPattern = PingFlavour.iputils.pattern := rfl

theorem roundTripPattern_eq : roundTripPattern = PingFlavour.busybox.pattern := rfl

theorem PingFlavour.prefix_columns (flavour : PingFlavour) :
    "min/avg/max".toList <+: flavour.columns := by
  cases flavour <;> decide

theorem PingFlavour.notMem_columns (flavour : PingFlavour) : '\n' ∉ flavour.columns := by
  cases flavour <;> decide

theorem PingFlavour.anchoredBy_pattern (flavour : PingFlavour) :
    flavour.pattern.AnchoredBy '\n' isSpace flavour.columns := by
  intro word hword
  obtain ⟨head, hhead, behind, hbehind, rfl⟩ := Language.mem_mul.mp hword
  obtain ⟨gap, hgap, named, hnamed, rfl⟩ := Language.mem_mul.mp hbehind
  obtain ⟨anchor, hanchor, more, -, rfl⟩ := Language.mem_mul.mp hnamed
  obtain rfl := Regex.eq_of_mem_language_literal hhead
  obtain rfl := Regex.eq_of_mem_language_literal hanchor
  have hsummary : '\n' ∉ flavour.summary := by cases flavour <;> decide
  exact ⟨_, gap, more, rfl, hsummary, (Regex.forall_of_mem_plus_set hgap).2⟩

/-- A text without a character of the columns has no line of times. -/
theorem PingFlavour.search?_of_notMem {flavour : PingFlavour} {char : Char}
    (hcolumns : char ∈ flavour.columns) {text : List Char} (htext : char ∉ text) :
    flavour.pattern.search? text = none := by
  refine Regex.search?_eq_none_of_notMem (fun word hword ↦ ?_) htext
  obtain ⟨head, gap, more, rfl, -, -⟩ := flavour.anchoredBy_pattern word hword
  simp [hcolumns]

/-- The search for the counts finds those of their line. -/
theorem search?_statsPattern (report : PingReport) :
    statsPattern.search? (pingText report) =
      some ⟨(1, Nat.toDigits 10 report.transmitted) :: (2, Nat.toDigits 10 report.received) ::
        report.flavour.receivedGroups 3, report.note ++ (['\n'] ++ report.timesLine)⟩ := by
  rw [pingText, anchoredBy_statsPattern.search?_append (by decide) report.replies_lines
    report.replies_plain.1]
  · exact Regex.search?_of_matchAt? (matchAt?_statsPattern report report.timesLine)
  · intro char hchar
    rw [PingReport.countsLine, List.append_assoc] at hchar
    have hdigit := isDigit_of_head?_toDigits report.transmitted _ char hchar
    refine ⟨isSpace_of_isDigit hdigit, fun hspace ↦ ?_⟩
    obtain rfl : ' ' = char := Option.some.inj hspace
    exact absurd hdigit (by decide)

/-- A search for the times skips the replies. -/
theorem PingFlavour.search?_pingText (flavour : PingFlavour) (report : PingReport) :
    flavour.pattern.search? (pingText report) =
      flavour.pattern.search? (report.countsLine ++ report.timesLine) := by
  refine flavour.anchoredBy_pattern.search?_append flavour.notMem_columns report.replies_lines
    (fun hfound ↦ report.replies_plain.2 (flavour.prefix_columns.isInfix.trans hfound))
    fun char hchar ↦ ?_
  rw [PingReport.countsLine, List.append_assoc] at hchar
  have hdigit := isDigit_of_head?_toDigits report.transmitted _ char hchar
  refine ⟨isSpace_of_isDigit hdigit, fun hstart ↦ ?_⟩
  have hfirst : flavour.columns.head? = some 'm' := by cases flavour <;> decide
  obtain rfl : 'm' = char := Option.some.inj (hfirst.symm.trans hstart)
  exact absurd hdigit (by decide)

theorem notMem_countsLine (report : PingReport) : '/' ∉ report.countsLine := by
  have hdigits : ∀ number, '/' ∉ Nat.toDigits 10 number := fun number hmem ↦
    absurd (isDigit_of_mem_toDigits hmem) (by decide)
  have hwords : '/' ∉ report.flavour.receivedWords := by cases report.flavour <;> decide
  simp only [PingReport.countsLine, List.mem_append, not_or]
  exact ⟨hdigits _, by decide, by decide, hdigits _, by decide, hwords, by decide,
    report.note_plain, by decide⟩

/-- A search for the times skips the counts. -/
theorem PingFlavour.search?_countsLine (flavour : PingFlavour) (report : PingReport)
    {rest : List Char} (hrest : ∀ char ∈ rest.head?, char = 'r') :
    flavour.pattern.search? (report.countsLine ++ rest) = flavour.pattern.search? rest := by
  refine flavour.anchoredBy_pattern.search?_append flavour.notMem_columns (fun char hchar ↦ ?_)
    (fun hfound ↦ notMem_countsLine report
      (hfound.subset (flavour.prefix_columns.subset (by decide)))) fun char hchar ↦ ?_
  · have hends : report.countsLine = (Nat.toDigits 10 report.transmitted ++
        (" packets transmitted,".toList ++ ([' '] ++ (Nat.toDigits 10 report.received ++ ([' '] ++
          (report.flavour.receivedWords ++ ("received".toList ++ report.note))))))) ++ ['\n'] := by
      simp only [PingReport.countsLine, List.append_assoc]
    rw [hends, List.getLast?_concat] at hchar
    exact (Option.some.inj hchar).symm
  · obtain rfl := hrest char hchar
    have hfirst : flavour.columns.head? = some 'm' := by cases flavour <;> decide
    rw [hfirst]
    exact ⟨by decide, by decide⟩

/-! ### Reading the output back -/

theorem packetCounts_pingText (report : PingReport) :
    packetCounts (pingText report) = some ((report.transmitted : ℤ), (report.received : ℤ)) := by
  have hdecimal : ∀ {number : ℕ}, number < 2 ^ 63 →
      parseInt (String.ofList (Nat.toDigits 10 number)) = some (number : ℤ) := fun hnumber ↦
    parseInt_toDigits ((hnumber.trans (by decide : 2 ^ 63 < 10 ^ 19)).trans_le
      (Nat.pow_le_pow_right (by decide) (by decide)))
  have htransmitted := hdecimal report.transmitted_lt
  have hreceived := hdecimal report.received_lt
  rw [packetCounts, search?_statsPattern]
  cases hflavour : report.flavour <;>
    simp only [groupText, Regex.Attempt.group?, PingFlavour.receivedGroups] <;>
    simp [htransmitted, hreceived, List.lookup_cons]

theorem parseFloat_millisText {micros : ℕ} (hmicros : micros < 2 ^ 63) :
    parseFloat (String.ofList (millisText micros)) = some (.finite ((micros : ℚ) / 1000)) := by
  have hlt : |(micros : ℚ) / 1000| < floatOverflow := by
    have hcast : (micros : ℚ) < 2 ^ 63 := by exact_mod_cast hmicros
    rw [abs_of_nonneg (by positivity)]
    exact (div_le_self (by positivity) (by norm_num)).trans_lt
      (hcast.trans (by decide +kernel))
  rw [millisText, String.ofList_toList, parseFloat_formatMilli, if_neg (not_lt.mpr (by positivity)),
    milli_div, toPyFloat, if_pos hlt]

theorem notMem_millisText {char : Char} (hchar : isNumeric char = false) (micros : ℕ) :
    char ∉ millisText micros := by
  intro hmem
  rw [isNumeric_of_mem_formatMilli (by positivity) hmem] at hchar
  exact Bool.noConfusion hchar

/-- The text of a line of times, with its ending. -/
theorem timesText_append (flavour : PingFlavour) (times : PingTimes) (ending : List Char) :
    flavour.timesText times ++ ending = flavour.summary ++ ([' '] ++ (flavour.columns ++ ([' '] ++
      (['='] ++ ([' '] ++ (millisText times.least ++ (['/'] ++ (millisText times.mean ++ (['/'] ++
        (millisText times.most ++ (flavour.deviationText times ++
          (" ms".toList ++ ending)))))))))))) := by
  simp only [PingFlavour.timesText, List.append_assoc]

/-- The mean is found in a line of times by the pattern of its flavour. -/
theorem PingFlavour.search?_timesText (flavour : PingFlavour) (times : PingTimes)
    (ending : List Char) :
    flavour.pattern.search? (flavour.timesText times ++ ending) =
      some ⟨[(1, millisText times.mean)], millisText times.most ++
        (flavour.deviationText times ++ (" ms".toList ++ ending))⟩ := by
  have hcolumns : ∀ rest, ∀ char ∈ (flavour.columns ++ rest).head?, isSpace char = false := by
    cases flavour <;> exact fun _ ↦ Regex.forall_head?_cons (by decide) _
  rw [timesText_append]
  exact Regex.search?_of_matchAt? (matchAt?_timesPattern flavour.summary hcolumns times.least
    times.mean _)

/-- The summary of busybox has no letter of the column that it does not print. -/
theorem notMem_timesText_busybox (times : PingTimes) {ending : List Char} (hending : 'e' ∉ ending) :
    'e' ∉ PingFlavour.busybox.timesText times ++ ending := by
  have hnumber : ∀ micros, 'e' ∉ millisText micros := notMem_millisText (by decide)
  simp only [timesText_append, List.mem_append, not_or]
  exact ⟨by decide, by decide, by decide, by decide, by decide, by decide, hnumber _, by decide,
    hnumber _, by decide, hnumber _, List.not_mem_nil, by decide, hending⟩

theorem head?_timesText (flavour : PingFlavour) (times : PingTimes) (ending : List Char) :
    ∀ char ∈ (flavour.timesText times ++ ending).head?, char = 'r' := by
  rw [timesText_append]
  cases flavour <;> exact fun _ hchar ↦ (Option.some.inj hchar).symm

/-- The pattern of the flavour finds the mean, and no other pattern finds one before. -/
theorem search?_timesLine (report : PingReport) {times : PingTimes}
    (htimes : report.times = some times) :
    report.flavour.pattern.search? (pingText report) =
        some ⟨[(1, millisText times.mean)], millisText times.most ++
          (report.flavour.deviationText times ++ (" ms".toList ++ report.ending))⟩ ∧
      (report.flavour = .busybox → rttPattern.search? (pingText report) = none) := by
  have hhead := head?_timesText report.flavour times report.ending
  have hline : report.timesLine = report.flavour.timesText times ++ report.ending := by
    rw [PingReport.timesLine, htimes, Option.map_some, Option.getD_some]
  refine ⟨?_, fun hflavour ↦ ?_⟩
  · rw [PingFlavour.search?_pingText, hline, PingFlavour.search?_countsLine _ _ hhead,
      PingFlavour.search?_timesText]
  · rw [rttPattern_eq, PingFlavour.search?_pingText, hline,
      PingFlavour.search?_countsLine _ _ hhead, hflavour]
    exact PingFlavour.search?_of_notMem (by decide : 'e' ∈ PingFlavour.iputils.columns)
      (notMem_timesText_busybox times (report.ending_plain.2 hflavour))

/-- The mean of the printed times is read. -/
theorem averageRtt_pingText (report : PingReport) :
    averageRtt (pingText report) =
      some (report.times.map fun times ↦ .finite ((times.mean : ℚ) / 1000)) := by
  cases htimes : report.times with
  | none =>
    have hnone : ∀ flavour : PingFlavour, flavour.pattern.search? (pingText report) = none := by
      intro flavour
      rw [flavour.search?_pingText]
      refine PingFlavour.search?_of_notMem (flavour.prefix_columns.subset (by decide : '/' ∈ _)) ?_
      rw [PingReport.timesLine, htimes, Option.map_none, Option.getD_none, List.nil_append,
        List.mem_append, not_or]
      exact ⟨notMem_countsLine report, report.ending_plain.1⟩
    rw [averageRtt, rttPattern_eq, roundTripPattern_eq, hnone, hnone, Option.map_none]
  | some times =>
    obtain ⟨hsearch, hother⟩ := search?_timesLine report htimes
    have hparse := parseFloat_millisText times.mean_lt
    cases hflavour : report.flavour with
    | iputils =>
      rw [hflavour] at hsearch
      rw [averageRtt, rttPattern_eq, hsearch]
      exact congrArg (Option.map some) hparse
    | busybox =>
      rw [hflavour] at hsearch
      rw [averageRtt, hother hflavour, roundTripPattern_eq, hsearch]
      exact congrArg (Option.map some) hparse

/-- What the command reports is read back from what it prints. -/
theorem runSystemPingFallback_pingText (report : PingReport) (count : ℤ) :
    runSystemPingFallback count (some (pingText report)) = report.outcome count := by
  rw [runSystemPingFallback, Option.bind_some, parsePing, packetCounts_pingText]
  simp only [Option.bind_eq_bind, Option.bind_some, averageRtt_pingText]
  rfl

/-! ### The three ways of a cycle -/

/-- An endpoint is up when three of five pings are answered. -/
theorem fst_classifyPingResult_eq_up_iff {result : PingResult} (hsuccess : 0 ≤ result.successCount)
    (hfailed : 0 ≤ result.failedCount) (baselineMean baselineStddev : Option ℚ) (k : ℚ) :
    (classifyPingResult result baselineMean baselineStddev k).1 = .up ↔
      0 < result.successCount ∧ 3 * result.totalCount ≤ 5 * result.successCount := by
  have htotal : result.totalCount = result.successCount + result.failedCount := rfl
  unfold classifyPingResult
  by_cases hnone : result.totalCount = 0 ∨ result.successCount = 0
  · rw [if_pos hnone]
    refine iff_of_false (by decide) ?_
    omega
  · have hpos : (0 : ℚ) < result.totalCount := by exact_mod_cast (by omega : 0 < result.totalCount)
    have hratio : (3 / 5 : ℚ) ≤ result.successCount / result.totalCount ↔
        3 * result.totalCount ≤ 5 * result.successCount := by
      rw [div_le_div_iff₀ (by norm_num) hpos, mul_comm (result.successCount : ℚ)]
      exact_mod_cast Iff.rfl
    have hall : (1 : ℚ) ≤ result.successCount / result.totalCount →
        (3 / 5 : ℚ) ≤ result.successCount / result.totalCount := le_trans (by norm_num)
    rw [if_neg hnone, ← hratio]
    dsimp only
    split_ifs with hone hmost hsome
    · refine iff_of_true ?_ ⟨by omega, hall hone⟩
      split
      · split_ifs <;> rfl
      · rfl
    · exact iff_of_true rfl ⟨by omega, hmost⟩
    · exact iff_of_false (by decide) fun hup ↦ hmost hup.2
    · exact iff_of_false (by decide) fun hup ↦ hmost hup.2

/-- Every way that answers saw the same packets. -/
structure Saw (sent received : ℕ) (asyncPing : Bool → Option Host) (stdout : Option (List Char)) :
    Prop where
  sockets : ∀ privileged, ∀ host ∈ asyncPing privileged,
    host.packetsSent = sent ∧ host.packetsReceived = received
  command : ∀ text ∈ stdout, ∃ report : PingReport,
    pingText report = text ∧ report.transmitted = sent ∧ report.received = received

/-- The outcome has the counts, and no infinite time. -/
def PingOutcome.Counts (outcome : PingOutcome) (sent received : ℕ) : Prop :=
  ∃ avg : Option ℚ, outcome = ⟨received, sent - received, avg.map .finite⟩

section Cycle

variable {sent received : ℕ} {asyncPing : Bool → Option Host} {stdout : Option (List Char)}

theorem Host.counts_outcome {host : Host} (hsent : host.packetsSent = sent)
    (hreceived : host.packetsReceived = received) : host.outcome.Counts sent received := by
  rw [outcome, hsent, hreceived]
  split_ifs
  · exact ⟨some host.avgRtt, rfl⟩
  · exact ⟨none, rfl⟩

theorem counts_runSystemPingFallback (hsaw : Saw sent received asyncPing stdout) (hsent : 0 < sent)
    (hle : received ≤ sent) {text : List Char} (htext : stdout = some text) (count : ℤ) :
    (runSystemPingFallback count stdout).Counts sent received := by
  obtain ⟨report, rfl, htransmitted, hreceived⟩ := hsaw.command text htext
  rw [htext, runSystemPingFallback_pingText]
  refine ⟨report.times.map fun times ↦ (times.mean : ℚ) / 1000, ?_⟩
  rw [PingReport.outcome, PingReport.sent, htransmitted, hreceived, if_neg (by omega),
    max_eq_right (by omega), Option.map_map]
  rfl

/-- Whichever way answers first, the outcome has the counts. -/
theorem counts_runPingCycle (hsaw : Saw sent received asyncPing stdout) (hsent : 0 < sent)
    (hle : received ≤ sent) {privileged : Bool}
    (hanswer : (asyncPing privileged).isSome ∨ (asyncPing false).isSome ∨ stdout.isSome)
    (count : ℤ) : (runPingCycle asyncPing stdout count privileged).Counts sent received := by
  have hfallback : asyncPing privileged = none → asyncPing false = none →
      (runSystemPingFallback count stdout).Counts sent received := by
    intro hfirst hsecond
    rw [hfirst, hsecond] at hanswer
    obtain ⟨text, htext⟩ := Option.isSome_iff_exists.mp
      ((hanswer.resolve_left Bool.false_ne_true).resolve_left Bool.false_ne_true)
    exact counts_runSystemPingFallback hsaw hsent hle htext count
  rw [runPingCycle]
  cases hfirst : asyncPing privileged with
  | some host =>
    obtain ⟨hpackets, hreplies⟩ := hsaw.sockets privileged host hfirst
    exact Host.counts_outcome hpackets hreplies
  | none =>
    dsimp only
    split_ifs with hprivileged
    · cases hsecond : asyncPing false with
      | some host =>
        obtain ⟨hpackets, hreplies⟩ := hsaw.sockets false host hsecond
        exact Host.counts_outcome hpackets hreplies
      | none => exact hfallback hfirst hsecond
    · rw [Bool.not_eq_true] at hprivileged
      exact hfallback hfirst (hprivileged ▸ hfirst)

/-- The operational state of a cycle is that of the packets, whichever way answers. -/
theorem fst_classify_runPingCycle (hsaw : Saw sent received asyncPing stdout) (hsent : 0 < sent)
    (hle : received ≤ sent) {privileged : Bool}
    (hanswer : (asyncPing privileged).isSome ∨ (asyncPing false).isSome ∨ stdout.isSome)
    (count : ℤ) (baselineMean baselineStddev : Option ℚ) (k : ℚ) :
    ∃ avg : Option ℚ,
      runPingCycle asyncPing stdout count privileged =
          ⟨received, sent - received, avg.map .finite⟩ ∧
        ((classifyPingResult ⟨received, sent - received, avg⟩ baselineMean baselineStddev k).1 = .up ↔
          3 * sent ≤ 5 * received) := by
  obtain ⟨avg, houtcome⟩ := counts_runPingCycle hsaw hsent hle hanswer count
  refine ⟨avg, houtcome, (fst_classifyPingResult_eq_up_iff (Int.natCast_nonneg received)
    (Int.sub_nonneg_of_le (Int.ofNat_le.mpr hle)) _ _ k).trans ?_⟩
  rw [PingResult.totalCount]
  dsimp only
  omega

end Cycle

/-- The busybox command answers for sockets that were refused, with two of five pings lost. -/
theorem fst_classify_runPingCycle_refused :
    ∃ report : PingReport, pingText report = ("--- 192.0.2.1 ping statistics ---\n" ++
        "5 packets transmitted, 3 packets received, 40% packet loss\n" ++
        "round-trip min/avg/max = 0.512/1.024/2.048 ms\n").toList ∧
      ∃ avg : Option ℚ,
        runPingCycle (fun _ ↦ none) (some (pingText report)) 5 true =
            ⟨(3 : ℕ), (5 : ℕ) - (3 : ℕ), avg.map .finite⟩ ∧
          ((classifyPingResult ⟨(3 : ℕ), (5 : ℕ) - (3 : ℕ), avg⟩ none none 3).1 = .up ↔
            3 * 5 ≤ 5 * 3) := by
  have hsaw : ∀ report : PingReport, report.transmitted = 5 → report.received = 3 →
      Saw 5 3 (fun _ ↦ none) (some (pingText report)) := fun report htransmitted hreceived ↦
    ⟨fun _ _ hhost ↦ absurd hhost (Option.some_ne_none _).symm, fun _ htext ↦
      ⟨report, Option.some.inj htext, htransmitted, hreceived⟩⟩
  refine ⟨⟨.busybox, "--- 192.0.2.1 ping statistics ---\n".toList, 5, 3,
    ", 40% packet loss".toList, some ⟨512, 1024, 2048, 0, by decide⟩, ['\n'],
    fun _ hchar ↦ (Option.some.inj hchar).symm, by decide +kernel, by decide, by decide, by decide,
    by decide⟩, by decide +kernel, ?_⟩
  exact fst_classify_runPingCycle (hsaw _ rfl rfl) (by decide) (by decide)
    (Or.inr (Or.inr rfl)) 5 none none 3

end Lnmp.Monitoring
