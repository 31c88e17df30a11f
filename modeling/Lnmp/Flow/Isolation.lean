import Lnmp.Flow.RoundTrip
import Lnmp.Flow.Simulation

/-!
# Exporters do not disturb each other

Templates, buffers and the sweep of a parser are shared by all exporters. `outputsOf_eq` says that
this cannot be observed: what a parser returns for the packets of one key is what a parser returns
that receives no other packets, as long as the clock does not go back. The packets of other keys
only sweep, which removes no template that the next packet of the key would not remove itself.
-/

set_option autoImplicit false
set_option relaxedAutoImplicit false

namespace Lnmp.Flow

open Lnmp.Foundation

/-! ### Packets of a key -/

/-- The parser reads the packet under a key. -/
def Protocol.hasKey (protocol : Protocol) (key : String × ℕ) (datagram : Datagram) : Bool :=
  datagram.exporterIp = key.1 &&
    (protocol.readHead datagram.data).any fun head ↦ head.sourceId = key.2

/-- The flows that a parser returns for the packets of a key, packet by packet. -/
def Protocol.outputsFrom (protocol : Protocol) (key : String × ℕ)
    (parser : TemplateParser protocol.Context) (datagrams : List Datagram) :
    List (Option (List FlowDict)) :=
  ((datagrams.zip (decodePackets protocol.decode parser datagrams).2).filter fun output ↦
    protocol.hasKey key output.1).map fun output ↦ dictsOf output.2

/-- The flows that a new parser returns for the packets of a key, packet by packet. -/
def Protocol.outputsOf (protocol : Protocol) (key : String × ℕ) (datagrams : List Datagram) :
    List (Option (List FlowDict)) :=
  protocol.outputsFrom key (TemplateParser.initial protocol.Context) datagrams

variable {Context Time : Type} {protocol : Protocol} {key : String × ℕ} {datagram : Datagram}
  {datagrams : List Datagram}

theorem outputsFrom_cons (parser : TemplateParser protocol.Context) (datagram : Datagram)
    (datagrams : List Datagram) :
    protocol.outputsFrom key parser (datagram :: datagrams) =
      (if protocol.hasKey key datagram then [dictsOf (protocol.decode parser datagram).2]
        else []) ++
        protocol.outputsFrom key (protocol.decode parser datagram).1 datagrams := by
  rw [Protocol.outputsFrom, decodePackets]
  by_cases hkey : protocol.hasKey key datagram = true <;>
    simp [Protocol.outputsFrom, hkey]

/-! ### Agreement -/

/-- A dialect is like itself. -/
def Likeness.refl (dialect : Dialect Context Time) : Likeness Context Time Context Time where
  dialect := dialect
  dialect' := dialect
  SameContext := Eq
  Covers := fun _ ↦ True
  SameFlow := Eq
  mayRaise := True
  reads := by
    rintro exporterIp fields payload context _ - rfl
    cases dictsOf (readRecords dialect (splitRecords exporterIp context fields payload)) with
    | none => exact .raised trivial
    | some flows => exact .flows (List.forall₂_eq_eq_eq ▸ rfl)

theorem SameFlows.eq {mayRaise : Prop} {first second : Option (List FlowDict)}
    (hsame : SameFlows mayRaise Eq first second) : first = second := by
  cases hsame with
  | flows hflows =>
    rw [List.forall₂_eq_eq_eq] at hflows
    rw [hflows]
  | raised => rfl

theorem sameArrival_refl (dialect : Dialect Context Time) (arrival : Arrival Context) :
    (Likeness.refl dialect).SameArrival arrival arrival := by
  cases arrival with
  | sweep now => exact .sweep now
  | template now id fields => exact .template now id trivial
  | dataSet now id payload context => exact .dataSet now id payload rfl

/-- Two parsers agree at a key from a time on, as soon as they sweep. -/
def AgreeFrom (dialect : Dialect Context Time) (key : String × ℕ) (time : ℚ)
    (parser parser' : TemplateParser Context) : Prop :=
  ∀ now, time ≤ now →
    (Likeness.refl dialect).AgreeAt key (parser.cleanupExpired now) (parser'.cleanupExpired now)

variable {dialect : Dialect Context Time} {parser parser' : TemplateParser Context} {time : ℚ}

theorem Template.isExpired_mono {template : Template} {earlier now : ℚ} (hle : earlier ≤ now)
    (hexpired : template.isExpired earlier = true) : template.isExpired now = true := by
  rw [Template.isExpired, decide_eq_true_eq] at hexpired ⊢
  linarith

/-- A later sweep removes what an earlier one does. -/
theorem get?_cleanupExpired_twice {earlier now : ℚ} (hle : earlier ≤ now)
    (lookup : String × ℕ × ℕ) :
    ((parser.cleanupExpired earlier).cleanupExpired now).templates.get? lookup =
      (parser.cleanupExpired now).templates.get? lookup := by
  rw [get?_cleanupExpired, get?_cleanupExpired, get?_cleanupExpired, Option.filter_filter]
  refine congrArg (Option.filter · _) (funext fun template ↦ ?_)
  by_cases hearlier : template.isExpired earlier = true
  · simp [hearlier, Template.isExpired_mono hle hearlier]
  · simp [hearlier]

theorem agreeFrom_refl (dialect : Dialect Context Time) (key : String × ℕ) (time : ℚ)
    (parser : TemplateParser Context) : AgreeFrom dialect key time parser parser :=
  fun _ _ ↦ ⟨fun _ ↦ rfl, fun _ _ _ ↦ trivial, List.forall₂_same.mpr fun _ _ ↦ ⟨rfl, rfl, rfl, rfl⟩⟩

/-- A packet of another key is not seen. -/
theorem AgreeFrom.other {parser parser' : TemplateParser protocol.Context}
    (hagree : AgreeFrom protocol.dialect key time parser parser') (htime : time ≤ datagram.now)
    (hother : protocol.hasKey key datagram = false) :
    AgreeFrom protocol.dialect key datagram.now (protocol.decode parser datagram).1 parser' := by
  intro now hnow
  have hstart := hagree now (htime.trans hnow)
  rw [protocol.decode_eq]
  cases hhead : protocol.readHead datagram.data with
  | none =>
    rw [Dialect.parsePacket, hhead]
    exact hstart
  | some head =>
    have hne : key ≠ (datagram.exporterIp, head.sourceId) := by
      rintro rfl
      simp [Protocol.hasKey, hhead] at hother
    have hsame : SameAt key (parser.cleanupExpired datagram.now)
        (protocol.dialect.parsePacket protocol.readHead parser datagram).1 := by
      rw [parsePacket_eq_arrive hhead, PacketHead.arrivals, parseAll_sweep]
      refine parseAll_elsewhere hne (fun arrival hmem now ↦ ?_) _
      obtain ⟨set, -, hset⟩ := List.mem_flatMap.mp hmem
      exact ne_sweep_of_mem_setArrivals hset now
    constructor
    · intro id
      rw [get?_cleanupExpired, hsame.templates, ← get?_cleanupExpired,
        get?_cleanupExpired_twice hnow, hstart.templates]
    · exact fun _ _ _ ↦ trivial
    · exact (congrArg (List.Forall₂ _ · _) hsame.waiting).mpr hstart.waiting

/-- A packet of the key gives the same flows. -/
theorem AgreeFrom.same {parser parser' : TemplateParser protocol.Context}
    (hagree : AgreeFrom protocol.dialect key time parser parser') (htime : time ≤ datagram.now)
    (hkey : protocol.hasKey key datagram = true) :
    AgreeFrom protocol.dialect key datagram.now (protocol.decode parser datagram).1
        (protocol.decode parser' datagram).1 ∧
      dictsOf (protocol.decode parser datagram).2 =
        dictsOf (protocol.decode parser' datagram).2 := by
  rw [Protocol.hasKey, Bool.and_eq_true, decide_eq_true_eq, Option.any_eq_true] at hkey
  obtain ⟨hexporter, head, hhead, hsource⟩ := hkey
  obtain rfl : key = (datagram.exporterIp, head.sourceId) :=
    Prod.ext hexporter.symm (of_decide_eq_true hsource).symm
  rw [protocol.decode_eq, protocol.decode_eq, parsePacket_eq_arrive hhead,
    parsePacket_eq_arrive hhead, PacketHead.arrivals, parseAll_sweep, parseAll_sweep]
  obtain ⟨hnext, hflows⟩ := Likeness.parseAll_agree (hagree datagram.now htime)
    (List.forall₂_same.mpr fun arrival _ ↦ sameArrival_refl protocol.dialect arrival)
  exact ⟨fun now _ ↦ hnext.cleanupExpired now, hflows.eq⟩

/-- The run lemma: what a parser returns for the packets of a key is what a parser that agrees at
the key returns when it receives no other packets. -/
theorem outputsFrom_eq {parser parser' : TemplateParser protocol.Context}
    (hagree : AgreeFrom protocol.dialect key time parser parser')
    (htimes : ∀ datagram ∈ datagrams, time ≤ datagram.now)
    (hsorted : datagrams.Pairwise (·.now ≤ ·.now)) :
    protocol.outputsFrom key parser datagrams =
      protocol.outputsFrom key parser' (datagrams.filter (protocol.hasKey key)) := by
  induction datagrams generalizing parser parser' time with
  | nil => rfl
  | cons datagram datagrams ih =>
    rw [List.forall_mem_cons] at htimes
    rw [List.pairwise_cons] at hsorted
    rw [outputsFrom_cons]
    by_cases hkey : protocol.hasKey key datagram = true
    · obtain ⟨hnext, hflows⟩ := hagree.same htimes.1 hkey
      rw [List.filter_cons_of_pos hkey, outputsFrom_cons, if_pos hkey, if_pos hkey, hflows,
        ih hnext hsorted.1 hsorted.2]
    · have hnext := hagree.other htimes.1 (Bool.not_eq_true _ ▸ hkey)
      rw [List.filter_cons_of_neg hkey, if_neg hkey, List.nil_append, ih hnext hsorted.1 hsorted.2]

/-- What a parser returns for the packets of a key, it returns when no other packets arrive. -/
theorem outputsOf_filter (hsorted : datagrams.Pairwise (·.now ≤ ·.now)) :
    protocol.outputsOf key datagrams =
      protocol.outputsOf key (datagrams.filter (protocol.hasKey key)) := by
  obtain ⟨time, htimes⟩ : ∃ time, ∀ datagram ∈ datagrams, time ≤ datagram.now := by
    cases hsorted with
    | nil => exact ⟨0, fun _ hmem ↦ absurd hmem List.not_mem_nil⟩
    | @cons datagram datagrams hrest _ =>
      exact ⟨datagram.now, List.forall_mem_cons.mpr ⟨le_rfl, hrest⟩⟩
  exact outputsFrom_eq (agreeFrom_refl protocol.dialect key time _) htimes hsorted

/-- Exporters do not disturb each other: two runs with the same packets of a key, at the same times,
give the same flows for these packets, whatever other packets arrive. -/
theorem outputsOf_eq (protocol : Protocol) (key : String × ℕ) (first second : List Datagram)
    (hfirst : first.Pairwise (·.now ≤ ·.now)) (hsecond : second.Pairwise (·.now ≤ ·.now))
    (hsame : first.filter (protocol.hasKey key) = second.filter (protocol.hasKey key)) :
    protocol.outputsOf key first = protocol.outputsOf key second := by
  rw [outputsOf_filter hfirst, hsame, ← outputsOf_filter hsecond]

/-- The template of another exporter is not seen. -/
theorem outputsOf_eq_sampleTemplate :
    Protocol.netflowV9.outputsOf ("192.0.2.9", 3)
        [sampleTemplate.datagram "192.0.2.7" 0 sampleHead,
          sampleTemplate.datagram "192.0.2.9" 1 sampleHead, samplePacket.datagram "192.0.2.9"] =
      Protocol.netflowV9.outputsOf ("192.0.2.9", 3)
        [sampleTemplate.datagram "192.0.2.9" 1 sampleHead, samplePacket.datagram "192.0.2.9"] := by
  have htimes : [sampleTemplate.datagram "192.0.2.9" 1 sampleHead,
      samplePacket.datagram "192.0.2.9"].Pairwise (·.now ≤ ·.now) :=
    List.pairwise_pair.mpr one_le_two
  refine outputsOf_eq .netflowV9 ("192.0.2.9", 3) _ _ (List.pairwise_cons.mpr ⟨?_, htimes⟩)
    htimes ?_
  · exact List.forall_mem_cons.mpr ⟨zero_le_one, List.forall_mem_singleton.mpr zero_le_two⟩
  · exact List.filter_cons_of_neg (by decide)

end Lnmp.Flow
