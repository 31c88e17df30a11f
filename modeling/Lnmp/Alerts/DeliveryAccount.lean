import Lnmp.Alerts.DeliveryLog
import Lnmp.Alerts.RateLimit
import Mathlib.Data.List.Perm.Basic

/-!
# The rows of the delivery log

What the delivery log has of each dispatch, in any interleaving with others. `accounted_of_run` says
that this is neither too much nor too little: never two rows for one dispatch and one channel, and
after the dispatch one for each channel that is to have one, unless its writing failed.
`deliveries_of_run` says that the rows `DELIVERED` of the table are alerts that were delivered, for
which the rate limits stand, and all of them where no writing fails. They keep the limit where the
dispatcher does (`length_deliveries_le_one`).

The invariant follows one dispatch at a time (`Accords`): the rows of a dispatch are those of the
channels that it is done with.
-/

set_option autoImplicit false
set_option relaxedAutoImplicit false

namespace Lnmp.Alerts

open Lnmp.Foundation Lnmp.Foundation.Runs

/-! ### Rows that are due -/

theorem ChannelRows.id_of_find? {channels : ChannelRows} {channelId : String}
    {channel : DispatchedChannel} (hfind : channels.find? channelId = some channel) :
    channel.id = channelId :=
  of_decide_eq_true (List.find?_some hfind :)

/-- A channel that passes is one of the channels. -/
theorem ChannelRows.mem_ids_of_any {channels : ChannelRows} {channelId : String}
    {passes : DispatchedChannel → Bool} (hany : (channels.find? channelId).any passes = true) :
    channelId ∈ channels.ids := by
  obtain ⟨channel, hfind, -⟩ := (Option.any_eq_true _ _).mp hany
  rw [← id_of_find? hfind]
  exact List.mem_map_of_mem (List.mem_of_find?_eq_some hfind)

/-- A channel is to have a row: one of the channels when a root cause suppresses the alert, and else
one that the alert passes. -/
def AlertRecord.isDue (record : AlertRecord) (channelId : String) : Bool :=
  match record.audience with
  | .suppressed channels => channelId ∈ channels.ids
  | .loaded channels =>
    (channels.find? channelId).any (·.passes record.alert.event record.alert.ipAddress)
  | _ => false

/-- A dispatch is done with a channel. -/
def isSettled (channelId : String) : Option Phase → Bool
  | some (.evaluating _ stages) => stages.get? channelId = some .done
  | _ => true

/-- Where a dispatch stands, by its audience and its phase. -/
inductive Stands : Audience → Option Phase → Prop
  | toggling : Stands .undecided (some .toggling)
  | loading (isFlapping : Bool) : Stands .undecided (some (.loading isFlapping))
  | disabled : Stands .undecided (some .logging)
  | suppressing : Stands .suppressing (some .logging)
  | suppressed (channels : ChannelRows) : Stands (.suppressed channels) (some .logging)
  | evaluating {channels : ChannelRows} {stages : Dict String Stage} (isFlapping : Bool)
      (hkeys : ∀ channelId ∈ channels.ids, channelId ∈ stages.keys) :
      Stands (.loaded channels) (some (.evaluating isFlapping stages))
  | dropped : Stands .undecided none
  | logged (channels : ChannelRows) : Stands (.suppressed channels) none
  | sent (channels : ChannelRows) : Stands (.loaded channels) none

theorem Stands.undecided {audience : Audience} {phase : Phase}
    (hstands : Stands audience (some phase))
    (hphase : phase = .toggling ∨ ∃ isFlapping, phase = .loading isFlapping) :
    audience = .undecided := by
  rcases hphase with rfl | ⟨isFlapping, rfl⟩
  · cases hstands
    rfl
  · cases hstands
    rfl

/-- A dispatch whose alert is suppressed has only its rows left to write. -/
theorem Stands.logging {phase : Option Phase} (hstands : Stands .suppressing phase) :
    phase = some .logging := by
  cases hstands
  rfl

/-- The channel of a row. -/
def LogWrite.channelId (write : LogWrite) : String := write.row.channelId

/-- A dispatch has the rows that are due of the channels that it is done with, each once. -/
structure Accords (record : AlertRecord) (dispatch : Option Dispatch) (own : List LogWrite) :
    Prop where
  alert_eq : ∀ live, dispatch = some live →
    live.event = record.alert.event ∧ live.timestamp = record.alert.timestamp
  stands : Stands record.audience (dispatch.map Dispatch.phase)
  due : ∀ live isFlapping stages channelId, dispatch = some live →
    live.phase = .evaluating isFlapping stages → stages.get? channelId = some .sending →
      record.isDue channelId
  count_eq : ∀ channelId, (own.map LogWrite.channelId).count channelId =
    if record.isDue channelId ∧ isSettled channelId (dispatch.map Dispatch.phase) then 1 else 0
  throttled : ∀ channels, record.audience = .suppressed channels →
    ∀ write ∈ own, write.row.status = .throttled

section Accords

variable {record : AlertRecord} {dispatch : Dispatch} {own : List LogWrite} {alert : Alert}

/-- There are no rows before the channels are known. -/
theorem Accords.own_eq_nil {ended : Option Dispatch} (haccords : Accords record ended own)
    (hnone : ∀ channelId, ¬record.isDue channelId) : own = [] := by
  have hids : own.map LogWrite.channelId = [] := by
    refine List.eq_nil_iff_forall_not_mem.mpr fun channelId ↦ ?_
    rw [← List.count_eq_zero, haccords.count_eq, if_neg (not_and_of_not_left _ (hnone channelId))]
  exact List.map_eq_nil_iff.mp hids

/-- A dispatch that has not loaded its channels is undecided. -/
theorem Accords.undecided (haccords : Accords record (some dispatch) own)
    (hphase : dispatch.phase = .toggling ∨ ∃ isFlapping, dispatch.phase = .loading isFlapping) :
    record.audience = .undecided :=
  Stands.undecided haccords.stands hphase

theorem not_isDue_of_undecided {audience : Audience}
    (haudience : audience = .undecided ∨ audience = .suppressing) (channelId : String) :
    ¬AlertRecord.isDue ⟨alert, audience⟩ channelId := by
  rcases haudience with rfl | rfl <;> exact Bool.false_ne_true

/-- A dispatch that starts has no rows. -/
theorem accords_start (event : StateEvent) (now : ℤ) (ipAddress : String) :
    Accords ⟨⟨event, now, ipAddress⟩, .undecided⟩ (some ⟨event, now, .toggling⟩) [] where
  alert_eq := by
    rintro _ ⟨⟩
    exact ⟨rfl, rfl⟩
  stands := Stands.toggling
  due := by
    rintro _ _ _ _ ⟨⟩ ⟨⟩
  count_eq channelId :=
    (if_neg (not_and_of_not_left _ (not_isDue_of_undecided (Or.inl rfl) channelId))).symm
  throttled := by
    rintro _ ⟨⟩

/-- A dispatch knows the toggle. -/
theorem Accords.toggle (haccords : Accords record (some dispatch) own)
    (hphase : dispatch.phase = .toggling) {phase : Phase} {audience : Audience}
    (hstands : Stands audience (some phase))
    (hnext : phase = .logging ∨ ∃ isFlapping, phase = .loading isFlapping)
    (haudience : audience = .undecided ∨ audience = .suppressing) :
    Accords ⟨record.alert, audience⟩ (some { dispatch with phase := phase }) own where
  alert_eq := by
    rintro _ ⟨⟩
    exact haccords.alert_eq dispatch rfl
  stands := hstands
  due := by
    rintro _ _ _ _ ⟨⟩ hevaluating
    rcases hnext with rfl | ⟨_, rfl⟩ <;> cases hevaluating
  count_eq channelId := by
    rw [if_neg (not_and_of_not_left _ (not_isDue_of_undecided haudience channelId)),
      haccords.own_eq_nil (not_isDue_of_undecided (Or.inl (haccords.undecided (Or.inl hphase))))]
    rfl
  throttled := by
    rintro _ hsuppressed
    rcases haudience with rfl | rfl <;> cases hsuppressed

/-- The rows in another order. -/
theorem Accords.of_perm {live : Option Dispatch} {other : List LogWrite}
    (haccords : Accords record live own) (hperm : other.Perm own) : Accords record live other where
  alert_eq := haccords.alert_eq
  stands := haccords.stands
  due := haccords.due
  count_eq channelId := ((hperm.map _).count_eq channelId).trans (haccords.count_eq channelId)
  throttled channels haudience write hwrite :=
    haccords.throttled channels haudience write (hperm.mem_iff.mp hwrite)

/-- The channels of a suppressed alert are known, and all have a row. -/
theorem Accords.suppress {live : Option Dispatch}
    (haccords : Accords ⟨alert, .suppressing⟩ live own) (channels : ChannelRows) (task : ℕ) :
    Accords ⟨alert, .suppressed channels⟩ live
      (own ++ (channels.rows.map alert.suppressedEntry).map fun row ↦ ⟨task, alert, row⟩) := by
  have hlogging : live.map Dispatch.phase = some .logging := haccords.stands.logging
  rw [haccords.own_eq_nil (not_isDue_of_undecided (Or.inr rfl)), List.nil_append, List.map_map]
  exact {
    alert_eq := haccords.alert_eq
    stands := hlogging ▸ Stands.suppressed channels
    due := by
      rintro dispatch _ _ _ rfl hevaluating
      rw [Option.map_some, hevaluating] at hlogging
      cases hlogging
    count_eq := fun channelId ↦ by
      have hids : (channels.rows.map ((fun row ↦ (⟨task, alert, row⟩ : LogWrite)) ∘
          alert.suppressedEntry)).map LogWrite.channelId = channels.ids := List.map_map ..
      have hcount : channels.ids.count channelId = if channelId ∈ channels.ids then 1 else 0 :=
        channels.nodup_ids.count
      rw [hids, hcount, hlogging]
      refine if_congr ?_ rfl rfl
      rw [AlertRecord.isDue, decide_eq_true_eq]
      exact (and_iff_left rfl).symm
    throttled := by
      rintro _ - write hwrite
      obtain ⟨channel, -, rfl⟩ := List.mem_map.mp hwrite
      rfl }

/-- A dispatch has loaded its channels. -/
theorem Accords.load (haccords : Accords record (some dispatch) own) {isFlapping : Bool}
    (hphase : dispatch.phase = .loading isFlapping) (channels : ChannelRows) :
    Accords ⟨record.alert, .loaded channels⟩ (some { dispatch with
      phase := .evaluating isFlapping
        (Dict.empty.update (channels.ids.map fun channel ↦ (channel, .ready))) }) own := by
  have hready : ∀ channelId stage, (Dict.empty.update (channels.ids.map fun channel ↦
      (channel, Stage.ready))).get? channelId = some stage → stage = .ready := by
    intro channelId stage hget
    by_cases hmem : channelId ∈ (channels.ids.map fun channel ↦ (channel, Stage.ready)).map
        Prod.fst
    · obtain ⟨value, hvalue, hstored⟩ := Dict.exists_get?_update Dict.empty hmem
      obtain ⟨_, -, hpair⟩ := List.mem_map.mp hvalue
      exact (Option.some.inj (hget.symm.trans hstored)).trans (Prod.mk.inj hpair).2.symm
    · rw [Dict.get?_update_of_not_mem _ hmem, Dict.get?_empty] at hget
      exact absurd hget.symm (Option.some_ne_none stage)
  refine ⟨?_, Stands.evaluating _ fun channelId hid ↦ ?_, ?_, fun channelId ↦ ?_, ?_⟩
  · rintro _ ⟨⟩
    exact haccords.alert_eq dispatch rfl
  · have hmem : channelId ∈ (channels.ids.map fun channel ↦ (channel, Stage.ready)).map
        Prod.fst := by
      rw [List.map_map]
      exact List.mem_map.mpr ⟨channelId, hid, rfl⟩
    obtain ⟨value, -, hstored⟩ := Dict.exists_get?_update Dict.empty hmem
    exact Dict.mem_keys_of_get? hstored
  · rintro _ _ _ channelId ⟨⟩ ⟨⟩ hsending
    exact absurd (hready channelId _ hsending) (by decide)
  · rw [haccords.own_eq_nil (not_isDue_of_undecided (Or.inl
      (haccords.undecided (Or.inr ⟨isFlapping, hphase⟩)))), if_neg]
    · rfl
    · rintro ⟨-, hdone⟩
      exact absurd (hready channelId _ (of_decide_eq_true hdone)) (by decide)
  · rintro _ ⟨⟩

/-- A channel goes on to its next stage. It has a row when it is done with and passes. -/
theorem Accords.settle {channels : ChannelRows} {isFlapping : Bool} {stages : Dict String Stage}
    {channelId : String} {before stage : Stage} {new : List LogWrite}
    (haccords : Accords ⟨alert, .loaded channels⟩ (some dispatch) own)
    (hphase : dispatch.phase = .evaluating isFlapping stages)
    (hbefore : stages.get? channelId = some before) (hopen : before ≠ .done)
    (hdue : stage = .sending → AlertRecord.isDue ⟨alert, .loaded channels⟩ channelId)
    (hnew : new.map LogWrite.channelId =
      if AlertRecord.isDue ⟨alert, .loaded channels⟩ channelId ∧ stage = .done then [channelId]
      else []) :
    Accords ⟨alert, .loaded channels⟩ (some { dispatch with
      phase := .evaluating isFlapping (stages.set channelId stage) }) (own ++ new) := by
  have hcount := haccords.count_eq
  simp only [Option.map_some, hphase, isSettled, decide_eq_true_eq] at hcount
  refine ⟨?_, Stands.evaluating _ fun other hid ↦ ?_, ?_, fun other ↦ ?_, ?_⟩
  · rintro _ ⟨⟩
    exact haccords.alert_eq dispatch rfl
  · have hstands := haccords.stands
    rw [Option.map_some, hphase] at hstands
    cases hstands with
    | evaluating _ hkeys =>
      exact (Dict.mem_keys_set _ _ _ _).mpr (Or.inr (hkeys other hid))
  · rintro _ _ _ other ⟨⟩ ⟨⟩ hsending
    rw [Dict.get?_set] at hsending
    split_ifs at hsending with hother
    · exact hother ▸ hdue (Option.some.inj hsending)
    · exact haccords.due dispatch _ _ other rfl hphase hsending
  · simp only [Option.map_some, isSettled, decide_eq_true_eq, Dict.get?_set]
    rw [List.map_append, List.count_append, hcount, hnew]
    by_cases hother : other = channelId
    · subst hother
      rw [hbefore, if_pos rfl, if_neg (fun hboth ↦ hopen (Option.some.inj hboth.2)), Nat.zero_add]
      simp only [Option.some_inj]
      split_ifs
      · exact List.count_singleton_self
      · exact List.count_nil
    · rw [if_neg hother]
      have hzero : (if AlertRecord.isDue ⟨alert, .loaded channels⟩ channelId ∧ stage = .done then
          [channelId] else []).count other = 0 := by
        split_ifs
        · exact List.count_eq_zero.mpr fun hmem ↦ hother (List.mem_singleton.mp hmem)
        · exact List.count_nil
      rw [hzero, Nat.add_zero]
  · rintro _ ⟨⟩

/-- A dispatch that ends is done with all its channels. -/
theorem Accords.finish (haccords : Accords record (some dispatch) own)
    (hphase : dispatch.phase = .logging ∨ ∃ isFlapping stages,
      dispatch.phase = .evaluating isFlapping stages ∧ ∀ stage ∈ stages.values, stage = .done)
    (haudience : record.audience ≠ .suppressing) : Accords record none own := by
  obtain ⟨alert, audience⟩ := record
  have hstands := haccords.stands
  have hcount := haccords.count_eq
  rw [Option.map_some] at hstands hcount
  refine ⟨fun _ hnone ↦ absurd hnone.symm (Option.some_ne_none _), ?_,
    fun _ _ _ _ hnone ↦ absurd hnone.symm (Option.some_ne_none _), fun channelId ↦ ?_,
    haccords.throttled⟩
  · rcases hphase with hphase | ⟨isFlapping, stages, hphase, -⟩
    · rw [hphase] at hstands
      cases hstands with
      | disabled => exact Stands.dropped
      | suppressing => exact absurd rfl haudience
      | suppressed channels => exact Stands.logged channels
    · rw [hphase] at hstands
      cases hstands with
      | evaluating _ hkeys => exact Stands.sent _
  · rw [hcount]
    refine if_congr (and_congr_right fun hdue ↦ iff_of_true ?_ rfl) rfl rfl
    rcases hphase with hphase | ⟨isFlapping, stages, hphase, hdone⟩
    · rw [hphase]
      rfl
    · rw [hphase] at hstands ⊢
      cases hstands with
      | evaluating _ hkeys =>
        obtain ⟨stage, hstage⟩ := (Dict.mem_keys_iff_exists _ _).mp
          (hkeys channelId (ChannelRows.mem_ids_of_any hdue))
        have hvalue : stage ∈ stages.values :=
          List.mem_map.mpr ⟨_, (Dict.get?_eq_some_iff _ _ _).mp hstage, rfl⟩
        exact decide_eq_true (hdone stage hvalue ▸ hstage)

end Accords

/-! ### Runs -/

/-- A row says that its alert was delivered. -/
def LogWrite.isDelivery (write : LogWrite) : Bool := write.row.status = .delivered

/-- The alert of a row, as the rate limits know it. -/
def LogWrite.sent (write : LogWrite) : RateKey × ℤ :=
  (write.alert.event.rateKey write.row.channelId, write.alert.timestamp)

/-- The alerts that rows say were delivered. -/
def deliveriesOf (writes : List LogWrite) : List (RateKey × ℤ) :=
  (writes.filter LogWrite.isDelivery).map LogWrite.sent

theorem deliveriesOf_append (first second : List LogWrite) :
    deliveriesOf (first ++ second) = deliveriesOf first ++ deliveriesOf second := by
  rw [deliveriesOf, List.filter_append, List.map_append]
  rfl

namespace DeliveryLog

/-- The rows of a dispatch. -/
def ofTask (log : DeliveryLog) (task : ℕ) : List LogWrite :=
  log.rows.filter fun write ↦ write.task = task

/-- Every dispatch has the rows that are due, a row is written while its dispatch goes on, and the
rows `DELIVERED` are the alerts that were delivered. -/
structure Sound (log : DeliveryLog) : Prop where
  accords : ∀ task record, log.alerts.get? task = some record →
    Accords record (log.dispatcher.dispatches.get? task) (log.ofTask task)
  fresh : ∀ task, log.alerts.get? task = none →
    log.dispatcher.dispatches.get? task = none ∧ log.ofTask task = []
  writing : ∀ write ∈ log.writing, write.task ∈ log.dispatcher.dispatches.keys
  deliveries : (deliveriesOf log.rows).Perm log.dispatcher.delivered

variable {log next : DeliveryLog} {dispatcher : Dispatcher} {task : ℕ} {record : AlertRecord}
  {dispatch : Dispatch} {phase : Phase} {entries : List AlertDeliveryLog}

theorem sound_init (origin : ℤ) : Sound (init origin) where
  accords _ _ hget := absurd hget.symm (Option.some_ne_none _)
  fresh _ _ := ⟨rfl, rfl⟩
  writing _ hwrite := absurd hwrite List.not_mem_nil
  deliveries := List.Perm.refl _

theorem rows_proceed : (log.proceed dispatcher task record entries).rows =
    log.rows ++ entries.map fun row ↦ ⟨task, record.alert, row⟩ :=
  (List.append_assoc ..).symm

theorem ofTask_proceed_self : (log.proceed dispatcher task record entries).ofTask task =
    log.ofTask task ++ entries.map fun row ↦ ⟨task, record.alert, row⟩ := by
  rw [ofTask, rows_proceed, List.filter_append, ofTask]
  refine congrArg _ (List.filter_eq_self.mpr fun write hwrite ↦ ?_)
  obtain ⟨row, -, rfl⟩ := List.mem_map.mp hwrite
  exact decide_eq_true rfl

theorem ofTask_proceed_other {other : ℕ} (hother : other ≠ task) :
    (log.proceed dispatcher task record entries).ofTask other = log.ofTask other := by
  rw [ofTask, rows_proceed, List.filter_append, ofTask]
  refine (congrArg _ (List.filter_eq_nil_iff.mpr fun write hwrite ↦ ?_)).trans (List.append_nil _)
  obtain ⟨row, -, rfl⟩ := List.mem_map.mp hwrite
  exact fun hsame ↦ hother (of_decide_eq_true hsame).symm

/-- A step that concerns one dispatch, which has not ended. -/
theorem Sound.proceed (hsound : Sound log)
    (hothers : ∀ other, other ≠ task →
      dispatcher.dispatches.get? other = log.dispatcher.dispatches.get? other)
    (hlive : dispatcher.dispatches.get? task = some dispatch)
    (haccords : Accords record (some dispatch)
      (log.ofTask task ++ entries.map fun row ↦ ⟨task, record.alert, row⟩))
    (hdelivered : dispatcher.delivered = log.dispatcher.delivered ++
      deliveriesOf (entries.map fun row ↦ ⟨task, record.alert, row⟩)) :
    Sound (log.proceed dispatcher task record entries) where
  accords other found hfound := by
    have hget : (log.alerts.set task record).get? other = some found := hfound
    show Accords found (dispatcher.dispatches.get? other) _
    rw [Dict.get?_set] at hget
    split_ifs at hget with hother
    · obtain rfl := Option.some.inj hget
      rw [hother, ofTask_proceed_self, hlive]
      exact haccords
    · rw [ofTask_proceed_other hother, hothers other hother]
      exact hsound.accords other found hget
  fresh other hnone := by
    have hget : (log.alerts.set task record).get? other = none := hnone
    show dispatcher.dispatches.get? other = none ∧ _
    rw [Dict.get?_set] at hget
    split_ifs at hget with hother
    rw [ofTask_proceed_other hother, hothers other hother]
    exact hsound.fresh other hget
  writing write hwrite := by
    show write.task ∈ dispatcher.dispatches.keys
    rcases List.mem_append.mp hwrite with hold | hnew
    · by_cases hsame : write.task = task
      · exact hsame ▸ Dict.mem_keys_of_get? hlive
      · obtain ⟨found, hfound⟩ := (Dict.mem_keys_iff_exists _ _).mp (hsound.writing write hold)
        exact Dict.mem_keys_of_get? ((hothers _ hsame).trans hfound)
    · obtain ⟨row, -, rfl⟩ := List.mem_map.mp hnew
      exact Dict.mem_keys_of_get? hlive
  deliveries := by
    show (deliveriesOf (log.proceed dispatcher task record entries).rows).Perm dispatcher.delivered
    rw [rows_proceed, deliveriesOf_append, hdelivered]
    exact hsound.deliveries.append_right _

/-- A step of the dispatcher that concerns no dispatch. -/
theorem Sound.setDispatcher (hsound : Sound log)
    (heq : dispatcher.dispatches = log.dispatcher.dispatches ∧
      dispatcher.delivered = log.dispatcher.delivered) :
    Sound { log with dispatcher := dispatcher } where
  accords := heq.1.symm ▸ hsound.accords
  fresh := heq.1.symm ▸ hsound.fresh
  writing := heq.1.symm ▸ hsound.writing
  deliveries := heq.2.symm ▸ hsound.deliveries

/-- A step that puts one dispatch in its next phase, and writes no row. -/
theorem Sound.advance (hsound : Sound log)
    (hadvances : log.dispatcher.Advances dispatcher task dispatch phase)
    (hdelivered : dispatcher.delivered = log.dispatcher.delivered)
    (haccords : Accords record (some { dispatch with phase := phase }) (log.ofTask task)) :
    Sound (log.proceed dispatcher task record []) :=
  hsound.proceed (fun _ ↦ hadvances.get?_other) hadvances.get?_next
    ((List.append_nil (log.ofTask task)).symm ▸ haccords)
    (hdelivered.trans (List.append_nil _).symm)

theorem Sound.start (hsound : Sound log) {message : Message} {ipAddress : String} {now : ℤ}
    (hstep : log.step (.start task message ipAddress now) = some next) : Sound next := by
  rw [step, Option.ite_none_left_eq_some, Option.map_eq_some_iff] at hstep
  obtain ⟨hfresh, dispatcher, hdispatcher, rfl⟩ := hstep
  cases message with
  | rca event => exact hsound.setDispatcher (Dispatcher.dispatches_start_rca hdispatcher)
  | state event =>
    obtain ⟨hdispatches, hdelivered⟩ := Dispatcher.dispatches_start_state hdispatcher
    obtain ⟨-, hown⟩ := hsound.fresh task ((Dict.get?_eq_none_iff _ _).mpr hfresh)
    have hlive : dispatcher.dispatches.get? task = some ⟨event, now, .toggling⟩ := by
      rw [hdispatches, Dict.get?_set, if_pos rfl]
    refine hsound.proceed (fun other hother ↦ ?_) hlive ?_
      (hdelivered.trans (List.append_nil _).symm)
    · rw [hdispatches, Dict.get?_set, if_neg hother]
    · rw [hown]
      exact accords_start event now ipAddress

theorem Sound.toggle (hsound : Sound log) {enabled : Bool}
    (hstep : log.step (.toggle task enabled) = some next) : Sound next := by
  rw [step, Option.bind_eq_some_iff] at hstep
  obtain ⟨record, hrecord, hstep⟩ := hstep
  obtain ⟨dispatcher, hdispatcher, rfl⟩ := Option.map_eq_some_iff.mp hstep
  obtain ⟨dispatch, phase, hadvances, hdelivered, hphase, hnext⟩ :=
    Dispatcher.advances_toggle hdispatcher
  have haccords := hsound.accords task record hrecord
  rw [hadvances.get?_eq] at haccords
  have hlogging : dispatcher.isLogging task = decide (phase = .logging) := by
    rw [Dispatcher.isLogging, hadvances.get?_next, Option.any_some]
  refine hsound.advance hadvances hdelivered (haccords.toggle hphase ?_ hnext ?_)
  · rcases hnext with rfl | ⟨isFlapping, rfl⟩
    · split_ifs
      · exact Stands.suppressing
      · exact Stands.disabled
    · rw [if_neg (fun hboth ↦ by simp [hlogging] at hboth)]
      exact Stands.loading isFlapping
  · split_ifs
    · exact Or.inr rfl
    · exact Or.inl rfl

theorem Sound.suppress (hsound : Sound log) {channels : ChannelRows}
    (hstep : log.step (.suppress task channels) = some next) : Sound next := by
  simp only [step] at hstep
  split at hstep
  · rename_i alert hget
    obtain rfl := Option.some.inj hstep
    have haccords := hsound.accords task _ hget
    obtain ⟨dispatch, hlive, -⟩ := Option.map_eq_some_iff.mp haccords.stands.logging
    refine hsound.proceed (fun _ _ ↦ rfl) hlive (hlive ▸ haccords.suppress channels task) ?_
    have hnone : deliveriesOf ((channels.rows.map alert.suppressedEntry).map
        fun row ↦ ⟨task, alert, row⟩) = [] := by
      rw [deliveriesOf, List.filter_eq_nil_iff.mpr, List.map_nil]
      intro write hwrite
      obtain ⟨row, hrow, rfl⟩ := List.mem_map.mp hwrite
      obtain ⟨channel, -, rfl⟩ := List.mem_map.mp hrow
      exact Bool.false_ne_true
    exact (hnone ▸ List.append_nil _).symm
  · exact absurd hstep.symm (Option.some_ne_none next)

theorem Sound.load (hsound : Sound log) {channels : ChannelRows}
    (hstep : log.step (.load task channels) = some next) : Sound next := by
  rw [step, Option.bind_eq_some_iff] at hstep
  obtain ⟨record, hrecord, hstep⟩ := hstep
  obtain ⟨dispatcher, hdispatcher, rfl⟩ := Option.map_eq_some_iff.mp hstep
  obtain ⟨dispatch, isFlapping, hadvances, hdelivered, hphase⟩ :=
    Dispatcher.advances_load hdispatcher
  have haccords := hsound.accords task record hrecord
  rw [hadvances.get?_eq] at haccords
  exact hsound.advance hadvances hdelivered (haccords.load hphase channels)

/-- Whether a channel is due is what its filters say. -/
theorem isDue_loaded {alert : Alert} {channels : ChannelRows} {channelId : String}
    {channel : DispatchedChannel} (hfind : channels.find? channelId = some channel) :
    AlertRecord.isDue ⟨alert, .loaded channels⟩ channelId =
      channel.passes alert.event alert.ipAddress := by
  show (channels.find? channelId).any _ = _
  rw [hfind, Option.any_some]

theorem Sound.evaluate (hsound : Sound log) {channelId : String}
    (hstep : log.step (.evaluate task channelId) = some next) : Sound next := by
  simp only [step] at hstep
  split at hstep
  · rename_i alert channels hget
    rw [Option.bind_eq_some_iff] at hstep
    obtain ⟨channel, hfind, hstep⟩ := hstep
    obtain ⟨dispatcher, hdispatcher, rfl⟩ := Option.map_eq_some_iff.mp hstep
    obtain ⟨dispatch, isFlapping, stages, stage, hadvances, hdelivered, hphase, hready, hstage⟩ :=
      Dispatcher.advances_evaluate hdispatcher
    have haccords := hsound.accords task _ hget
    rw [hadvances.get?_eq] at haccords
    have hevent : dispatch.event = alert.event := (haccords.alert_eq dispatch rfl).1
    have hstage? : dispatcher.stage? task channelId = some stage := by
      rw [Dispatcher.stage?, hadvances.get?_next]
      exact (Dict.get?_set ..).trans (if_pos rfl)
    rw [hstage?]
    refine hsound.proceed (fun _ ↦ hadvances.get?_other) hadvances.get?_next
      (haccords.settle hphase hready (by decide) ?_ ?_) ?_
    · rintro rfl
      obtain hdone | ⟨-, hpasses⟩ := hstage
      · cases hdone
      · rw [hevent] at hpasses
        exact hpasses
    · rw [isDue_loaded hfind, throttledEntries]
      simp only [Option.some_inj]
      split_ifs
      · exact congrArg (fun id ↦ [id]) (ChannelRows.id_of_find? hfind)
      · rfl
    · rw [hdelivered, throttledEntries]
      split_ifs
      · exact (List.append_nil _).symm
      · exact (List.append_nil _).symm
  · exact absurd hstep.symm (Option.some_ne_none next)

/-- The row of a sending says what the provider reported. -/
theorem deliveriesOf_sentEntry (alert : Alert) (channel : DispatchedChannel)
    (result : Except String SendReply) :
    deliveriesOf [⟨task, alert, alert.sentEntry channel result⟩] =
      if isDelivered result then [(alert.event.rateKey channel.id, alert.timestamp)] else [] := by
  cases result with
  | error message => rfl
  | ok reply =>
    obtain ⟨delivered, statusCode, message⟩ := reply
    cases delivered <;> rfl

theorem Sound.provide (hsound : Sound log) {channelId : String} {result : Except String SendReply}
    (hstep : log.step (.provide task channelId result) = some next) : Sound next := by
  simp only [step] at hstep
  split at hstep
  · rename_i alert channels hget
    rw [Option.bind_eq_some_iff] at hstep
    obtain ⟨channel, hfind, hstep⟩ := hstep
    obtain ⟨dispatcher, hdispatcher, rfl⟩ := Option.map_eq_some_iff.mp hstep
    obtain ⟨dispatch, isFlapping, stages, hadvances, hdelivered, hphase, hsending⟩ :=
      Dispatcher.advances_provide hdispatcher
    have haccords := hsound.accords task _ hget
    rw [hadvances.get?_eq] at haccords
    obtain ⟨hevent, htime⟩ := haccords.alert_eq dispatch rfl
    have hid := ChannelRows.id_of_find? hfind
    refine hsound.proceed (fun _ ↦ hadvances.get?_other) hadvances.get?_next
      (haccords.settle hphase hsending (by decide) (fun hstage ↦ absurd hstage (by decide)) ?_) ?_
    · rw [if_pos ⟨haccords.due dispatch _ _ channelId rfl hphase hsending, rfl⟩, ← hid]
      cases result <;> rfl
    · rw [hdelivered, hevent, htime, List.map_singleton, deliveriesOf_sentEntry, hid]
  · exact absurd hstep.symm (Option.some_ne_none next)

/-- The rows in another order. -/
theorem Sound.of_perm (hsound : Sound log) (hdispatcher : next.dispatcher = log.dispatcher)
    (halerts : next.alerts = log.alerts) (hperm : next.rows.Perm log.rows)
    (hwriting : ∀ write ∈ next.writing, write ∈ log.writing) : Sound next where
  accords other record hrecord := by
    rw [hdispatcher]
    exact (hsound.accords other record (halerts ▸ hrecord)).of_perm (hperm.filter _)
  fresh other hnone := by
    obtain ⟨hget, hown⟩ := hsound.fresh other (halerts ▸ hnone)
    rw [hdispatcher]
    exact ⟨hget, List.perm_nil.mp (hown ▸ hperm.filter _)⟩
  writing write hwrite := by
    rw [hdispatcher]
    exact hsound.writing write (hwriting write hwrite)
  deliveries := by
    rw [hdispatcher]
    exact ((hperm.filter _).map _).trans hsound.deliveries

/-- A row is written or lost. -/
theorem Sound.write (hsound : Sound log) {index : ℕ} {succeeds : Bool}
    (hstep : log.step (.write index succeeds) = some next) : Sound next := by
  rw [step, Option.map_eq_some_iff] at hstep
  obtain ⟨write, hwrite, rfl⟩ := hstep
  obtain ⟨hindex, rfl⟩ := List.getElem?_eq_some_iff.mp hwrite
  have hperm : (log.writing[index] :: log.writing.eraseIdx index).Perm log.writing :=
    List.getElem_cons_eraseIdx_perm hindex
  refine hsound.of_perm rfl rfl (List.perm_iff_count.mpr fun write ↦ ?_)
    fun write hmem ↦ List.mem_of_mem_eraseIdx hmem
  have hcount := hperm.count_eq write
  rw [List.count_cons] at hcount
  cases succeeds
  all_goals
    simp only [rows, List.count_append, List.count_singleton, Bool.false_eq_true, if_true, if_false]
    omega

/-- A dispatch ends when all its rows are written or lost. -/
theorem Sound.finish (hsound : Sound log) (hstep : log.step (.finish task) = some next) :
    Sound next := by
  rw [step, Option.ite_none_left_eq_some, Option.map_eq_some_iff] at hstep
  obtain ⟨hguard, dispatcher, hdispatcher, rfl⟩ := hstep
  obtain ⟨haudience, hwriting⟩ := not_or.mp hguard
  obtain ⟨dispatch, hget, hdispatches, hdelivered, hphase⟩ :=
    Dispatcher.dispatches_finish hdispatcher
  refine ⟨fun other record hrecord ↦ ?_, fun other hnone ↦ ?_, fun write hwrite ↦ ?_,
    hdelivered.symm ▸ hsound.deliveries⟩
  · have haccords := hsound.accords other record hrecord
    show Accords record (dispatcher.dispatches.get? other) (log.ofTask other)
    rw [hdispatches, Dict.get?_erase]
    split_ifs with hother
    · subst hother
      rw [hget] at haccords
      refine haccords.finish hphase fun hsuppressing ↦ haudience ?_
      have hrecord' : log.alerts.get? other = some record := hrecord
      rw [hrecord', Option.any_some]
      exact decide_eq_true hsuppressing
    · exact haccords
  · show dispatcher.dispatches.get? other = none ∧ log.ofTask other = []
    obtain ⟨hget', hown⟩ := hsound.fresh other hnone
    rw [hdispatches, Dict.get?_erase, hget', ite_self]
    exact ⟨rfl, hown⟩
  · show write.task ∈ dispatcher.dispatches.keys
    obtain ⟨found, hfound⟩ := (Dict.mem_keys_iff_exists _ _).mp (hsound.writing write hwrite)
    refine (Dict.mem_keys_iff_exists _ _).mpr ⟨found, ?_⟩
    rw [hdispatches, Dict.get?_erase, if_neg]
    · exact hfound
    · exact fun hsame ↦ hwriting (List.any_eq_true.mpr ⟨write, hwrite, decide_eq_true hsame⟩)

theorem Sound.step {event : DeliveryEvent} (hsound : Sound log)
    (hstep : log.step event = some next) : Sound next := by
  cases event with
  | prune now =>
    obtain ⟨dispatcher, hdispatcher, rfl⟩ := Option.map_eq_some_iff.mp hstep
    exact hsound.setDispatcher (Dispatcher.dispatches_prune hdispatcher)
  | start task message ipAddress now => exact hsound.start hstep
  | toggle task enabled => exact hsound.toggle hstep
  | suppress task channels => exact hsound.suppress hstep
  | load task channels => exact hsound.load hstep
  | evaluate task channelId => exact hsound.evaluate hstep
  | provide task channelId result => exact hsound.provide hstep
  | write index succeeds => exact hsound.write hstep
  | finish task => exact hsound.finish hstep

theorem sound_of_run {origin : ℤ} {events : List DeliveryEvent}
    (hrun : run step (init origin) events = some log) : Sound log :=
  invariant_of_forall_mem Sound (fun _ _ _ hsound _ hstep ↦ hsound.step hstep) (sound_init origin)
    (fun _ _ ↦ trivial : ∀ event ∈ events, True) hrun

/-- The number of rows of a dispatch for a channel. -/
def rowCount (writes : List LogWrite) (task : ℕ) (channelId : String) : ℕ :=
  writes.countP fun write ↦ write.task = task ∧ write.channelId = channelId

/-- There are no rows but those that are due, and a dispatch that has ended has them all: each is in
the table or was lost. -/
structure Accounted (log : DeliveryLog) : Prop where
  known : ∀ write ∈ log.rows, write.task ∈ log.alerts.keys
  atMostOne : ∀ task channelId, rowCount log.rows task channelId ≤ 1
  ended : ∀ task record, log.alerts.get? task = some record →
    log.dispatcher.dispatches.get? task = none → record.audience ≠ .suppressing ∧
      ∀ channelId, rowCount log.written task channelId + rowCount log.lost task channelId =
        if record.isDue channelId then 1 else 0
  suppressed : ∀ task alert channels,
    log.alerts.get? task = some ⟨alert, .suppressed channels⟩ →
      ∀ write ∈ log.rows, write.task = task → write.row.status = .throttled

theorem rowCount_rows (log : DeliveryLog) (task : ℕ) (channelId : String) :
    rowCount log.rows task channelId =
      ((log.ofTask task).map LogWrite.channelId).count channelId := by
  rw [rowCount, ofTask, List.count, List.countP_map, List.countP_filter]
  refine List.countP_congr fun write _ ↦ ?_
  simp [and_comm]

/-- A row that is being written has a dispatch that goes on. -/
theorem Sound.rowCount_writing (hsound : Sound log)
    (hended : log.dispatcher.dispatches.get? task = none) (channelId : String) :
    rowCount log.writing task channelId = 0 := by
  refine List.countP_eq_zero.mpr fun write hwrite hboth ↦ ?_
  obtain ⟨rfl, -⟩ := of_decide_eq_true hboth
  exact (Dict.get?_eq_none_iff _ _).mp hended (hsound.writing write hwrite)

theorem Sound.accounted (hsound : Sound log) : Accounted log where
  known write hwrite := by
    by_contra hunknown
    obtain ⟨-, hown⟩ := hsound.fresh _ ((Dict.get?_eq_none_iff _ _).mpr hunknown)
    have hmem : write ∈ log.ofTask write.task :=
      List.mem_filter.mpr ⟨hwrite, decide_eq_true rfl⟩
    rw [hown] at hmem
    exact List.not_mem_nil hmem
  atMostOne task channelId := by
    rw [rowCount_rows]
    cases hrecord : log.alerts.get? task with
    | none =>
      rw [(hsound.fresh task hrecord).2]
      exact Nat.zero_le 1
    | some record =>
      rw [(hsound.accords task record hrecord).count_eq]
      split_ifs
      · exact le_rfl
      · exact Nat.zero_le 1
  ended task record hrecord hended := by
    have haccords := hsound.accords task record hrecord
    rw [hended] at haccords
    refine ⟨fun hsuppressing ↦ ?_, fun channelId ↦ ?_⟩
    · have hstands := haccords.stands
      rw [hsuppressing] at hstands
      exact absurd hstands.logging.symm (Option.some_ne_none _)
    · have hall : rowCount log.rows task channelId =
          rowCount log.written task channelId + rowCount log.lost task channelId +
            rowCount log.writing task channelId :=
        List.countP_append.trans (congrArg (· + _) List.countP_append)
      rw [hsound.rowCount_writing hended, Nat.add_zero, rowCount_rows, haccords.count_eq] at hall
      rw [← hall]
      exact if_congr (and_iff_left rfl) rfl rfl
  suppressed task alert channels hrecord write hwrite htask :=
    (hsound.accords task _ hrecord).throttled channels rfl write
      (List.mem_filter.mpr ⟨hwrite, decide_eq_true htask⟩)

/-- A step that is no failing write loses no row. -/
theorem lost_of_step {event : DeliveryEvent} (hkind : ∀ index, event ≠ .write index false)
    (hstep : log.step event = some next) : next.lost = log.lost := by
  cases event with
  | write index succeeds =>
    obtain ⟨write, -, rfl⟩ := Option.map_eq_some_iff.mp hstep
    cases succeeds with
    | true => rfl
    | false => exact absurd rfl (hkind index)
  | _ =>
    simp only [step] at hstep
    grind [proceed, Option.map_eq_some_iff, Option.bind_eq_some_iff]

/-- Where no writing fails, no row is lost. -/
theorem lost_eq_nil_of_run {origin : ℤ} {events : List DeliveryEvent}
    (hwrites : ∀ index, DeliveryEvent.write index false ∉ events)
    (hrun : run step (init origin) events = some log) : log.lost = [] := by
  have hkinds : ∀ event ∈ events, ∀ index, event ≠ .write index false :=
    fun event hevent index hwrite ↦ hwrites index (hwrite ▸ hevent)
  refine invariant_of_forall_mem (fun log : DeliveryLog ↦ log.lost = []) ?_ rfl hkinds hrun
  exact fun log event next hlost hkind hstep ↦ (lost_of_step hkind hstep).trans hlost

/-- The delivery log is complete in every run: no dispatch has two rows for a channel, and one that
has ended has one for each channel that its alert passes, or for each one at all when a root cause
suppresses it. A row is lost only when its writing fails. -/
theorem accounted_of_run {origin : ℤ} {events : List DeliveryEvent}
    (hrun : run step (init origin) events = some log) :
    Accounted log ∧ ((∀ index, DeliveryEvent.write index false ∉ events) → log.lost = []) :=
  ⟨(sound_of_run hrun).accounted, fun hwrites ↦ lost_eq_nil_of_run hwrites hrun⟩

/-- The rows `DELIVERED` of the table are alerts that were delivered and count for the rate limits,
and all of these when no writing failed and none is to come. -/
theorem deliveries_of_run {origin : ℤ} {events : List DeliveryEvent}
    (hrun : run step (init origin) events = some log) :
    (deliveriesOf log.written).Subperm log.dispatcher.delivered ∧
      ((∀ index, DeliveryEvent.write index false ∉ events) → log.writing = [] →
        (deliveriesOf log.written).Perm log.dispatcher.delivered) := by
  have hdeliveries := (sound_of_run hrun).deliveries
  rw [rows, deliveriesOf_append, deliveriesOf_append] at hdeliveries
  refine ⟨?_, fun hwrites hwriting ↦ ?_⟩
  · rw [List.append_assoc] at hdeliveries
    exact (List.sublist_append_left _ _).subperm.trans hdeliveries.subperm
  · rw [lost_eq_nil_of_run hwrites hrun, hwriting] at hdeliveries
    simpa [deliveriesOf] using hdeliveries

theorem nodup_smtp_hook : ["smtp", "hook"].Nodup := by decide

/-- A channel for everything, and one for recoveries. -/
def mailRows : ChannelRows where
  rows := [⟨"smtp", "Mail", [], [], []⟩, ⟨"hook", "Recoveries", [], [], ["UP"]⟩]
  nodup_ids := nodup_smtp_hook

/-- An alert that one of two channels delivers. -/
def mailDispatch : List DeliveryEvent :=
  [.start 1 (.state Dispatcher.sampleDown) "10.0.0.1" 0, .toggle 1 true, .load 1 mailRows,
    .evaluate 1 "hook", .evaluate 1 "smtp", .provide 1 "smtp" (.ok ⟨true, some 250, "Sent"⟩),
    .write 0 true, .finish 1]

theorem isSome_run_mailDispatch : (run step (init 0) mailDispatch).isSome = true := by
  decide +kernel

theorem accounted_of_run_mailDispatch :
    ∃ log, run step (init 0) mailDispatch = some log ∧ Accounted log ∧
      ((∀ index, DeliveryEvent.write index false ∉ mailDispatch) → log.lost = []) := by
  obtain ⟨log, hrun⟩ := Option.isSome_iff_exists.mp isSome_run_mailDispatch
  exact ⟨log, hrun, accounted_of_run hrun⟩

theorem deliveries_of_run_mailDispatch :
    ∃ log, run step (init 0) mailDispatch = some log ∧
      (deliveriesOf log.written).Subperm log.dispatcher.delivered ∧
        ((∀ index, DeliveryEvent.write index false ∉ mailDispatch) → log.writing = [] →
          (deliveriesOf log.written).Perm log.dispatcher.delivered) := by
  obtain ⟨log, hrun⟩ := Option.isSome_iff_exists.mp isSome_run_mailDispatch
  exact ⟨log, hrun, deliveries_of_run hrun⟩

/-! ### The rate limit of the rows -/

/-- What an event is for the dispatcher, `none` when it is about the log alone. -/
def dispatcherEvent? : DeliveryEvent → Option DispatcherEvent
  | .prune now => some (.prune now)
  | .start task message _ now => some (.start task message now)
  | .toggle task enabled => some (.toggle task enabled)
  | .suppress _ _ => none
  | .load task channels => some (.load task channels.ids)
  | .evaluate task channelId => some (.evaluate task channelId)
  | .provide task channelId result => some (.provide task channelId (isDelivered result))
  | .write _ _ => none
  | .finish task => some (.finish task)

/-- A step of the log is a step of the dispatcher with the filters of some channels, or none at
all. -/
theorem dispatcher_step {event : DeliveryEvent} (hstep : log.step event = some next) :
    dispatcherEvent? event = none ∧ next.dispatcher = log.dispatcher ∨
      ∃ dispatcherEvent passesFilters, dispatcherEvent? event = some dispatcherEvent ∧
        log.dispatcher.step passesFilters dispatcherEvent = some next.dispatcher := by
  cases event with
  | prune now =>
    obtain ⟨dispatcher, hdispatcher, rfl⟩ := Option.map_eq_some_iff.mp hstep
    exact Or.inr ⟨_, _, rfl, hdispatcher⟩
  | start task message ipAddress now =>
    rw [step, Option.ite_none_left_eq_some, Option.map_eq_some_iff] at hstep
    obtain ⟨-, dispatcher, hdispatcher, rfl⟩ := hstep
    cases message <;> exact Or.inr ⟨_, _, rfl, hdispatcher⟩
  | toggle task enabled =>
    obtain ⟨record, -, hstep⟩ := Option.bind_eq_some_iff.mp hstep
    obtain ⟨dispatcher, hdispatcher, rfl⟩ := Option.map_eq_some_iff.mp hstep
    exact Or.inr ⟨_, _, rfl, hdispatcher⟩
  | suppress task channels =>
    simp only [step] at hstep
    split at hstep
    · obtain rfl := Option.some.inj hstep
      exact Or.inl ⟨rfl, rfl⟩
    · exact absurd hstep.symm (Option.some_ne_none next)
  | load task channels =>
    obtain ⟨record, -, hstep⟩ := Option.bind_eq_some_iff.mp hstep
    obtain ⟨dispatcher, hdispatcher, rfl⟩ := Option.map_eq_some_iff.mp hstep
    exact Or.inr ⟨_, _, rfl, hdispatcher⟩
  | evaluate task channelId =>
    simp only [step] at hstep
    split at hstep
    · obtain ⟨channel, -, hstep⟩ := Option.bind_eq_some_iff.mp hstep
      obtain ⟨dispatcher, hdispatcher, rfl⟩ := Option.map_eq_some_iff.mp hstep
      exact Or.inr ⟨_, _, rfl, hdispatcher⟩
    · exact absurd hstep.symm (Option.some_ne_none next)
  | provide task channelId result =>
    simp only [step] at hstep
    split at hstep
    · obtain ⟨channel, -, hstep⟩ := Option.bind_eq_some_iff.mp hstep
      obtain ⟨dispatcher, hdispatcher, rfl⟩ := Option.map_eq_some_iff.mp hstep
      exact Or.inr ⟨_, _, rfl, hdispatcher⟩
    · exact absurd hstep.symm (Option.some_ne_none next)
  | write index succeeds =>
    obtain ⟨write, -, rfl⟩ := Option.map_eq_some_iff.mp hstep
    exact Or.inl ⟨rfl, rfl⟩
  | finish task =>
    rw [step, Option.ite_none_left_eq_some, Option.map_eq_some_iff] at hstep
    obtain ⟨-, dispatcher, hdispatcher, rfl⟩ := hstep
    exact Or.inr ⟨_, _, rfl, hdispatcher⟩

/-- The condition of the rate limit for a step of the dispatcher. -/
def RateLimitHolds (log : DeliveryLog) (event : DeliveryEvent) : Prop :=
  ∀ dispatcherEvent, dispatcherEvent? event = some dispatcherEvent →
    log.dispatcher.RateLimitHolds dispatcherEvent

theorem remembers_of_run {origin : ℤ} {events : List DeliveryEvent}
    (hsteps : EveryStep step (init origin) events RateLimitHolds)
    (hrun : run step (init origin) events = some log) : log.dispatcher.Remembers := by
  refine invariant_of_everyStep (fun log ↦ log.dispatcher.Remembers)
    (fun before event after hremembers hholds hstep ↦ ?_) (Dispatcher.remembers_init origin)
    hsteps hrun
  obtain ⟨-, hsame⟩ | ⟨dispatcherEvent, passesFilters, hevent, hdispatcher⟩ := dispatcher_step hstep
  · exact hsame ▸ hremembers
  · exact hremembers.step (hholds dispatcherEvent hevent) hdispatcher

/-- The rows `DELIVERED` keep the rate limit, whatever channels the dispatches have loaded, in every
run whose steps meet its condition. -/
theorem length_deliveries_le_one {origin : ℤ} {events : List DeliveryEvent}
    (hsteps : EveryStep step (init origin) events RateLimitHolds)
    (hrun : run step (init origin) events = some log) (key : RateKey) (time : ℤ) :
    ((deliveriesOf log.rows).filter fun alert ↦
      alert.1 = key ∧ time ≤ alert.2 ∧ alert.2 < time + minutes 5).length ≤ 1 := by
  rw [((sound_of_run hrun).deliveries.filter _).length_eq]
  exact (remembers_of_run hsteps hrun).keepsRateLimit key time

/-- A dispatch up to the provider of its first channel. -/
def mailSending (task : ℕ) (now : ℤ) : List DeliveryEvent :=
  [.start task (.state Dispatcher.sampleDown) "10.0.0.1" now, .toggle task true,
    .load task mailRows, .evaluate task "smtp"]

/-- Two dispatches for one endpoint, the second five minutes after the first. -/
def mailApart : List DeliveryEvent :=
  mailSending 1 0 ++ [.provide 1 "smtp" (.ok ⟨true, some 250, "Sent"⟩)] ++
    mailSending 2 (minutes 5)

/-- Both deliver to their first channel. -/
def mailSent : List DeliveryEvent :=
  mailApart ++ [.provide 2 "smtp" (.ok ⟨true, some 250, "Sent"⟩)]

theorem isSome_run_mailSent : (run step (init 0) mailSent).isSome = true := by
  decide +kernel

/-- Up to the provider nothing is to be met. -/
theorem rateLimitHolds_mailSending {now : ℤ} :
    ∀ event ∈ mailSending task now, ∀ log, RateLimitHolds log event := by
  intro event hevent log dispatcherEvent hkind
  simp only [mailSending, List.mem_cons, List.not_mem_nil, or_false] at hevent
  rcases hevent with rfl | rfl | rfl | rfl <;> obtain rfl := Option.some.inj hkind <;> trivial

theorem everyStep_mailSent : EveryStep step (init 0) mailSent RateLimitHolds := by
  refine EveryStep.concat (EveryStep.append (EveryStep.concat
    (EveryStep.append everyStep_nil rateLimitHolds_mailSending) ?_) rateLimitHolds_mailSending) ?_
  all_goals
    intro state hrun dispatcherEvent hevent
    obtain rfl := Option.some.inj hevent
    refine Dispatcher.rateLimitHolds_provide_iff.mpr ?_
  · have hfirst : (run step (init 0) (mailSending 1 0)).all (fun log ↦
        (log.dispatcher.dispatches.get? 1).all fun dispatch ↦
          (log.dispatcher.caches.rateLimits.get? (dispatch.event.rateKey "smtp")).all
            fun lastSent ↦ lastSent + minutes 5 ≤ dispatch.timestamp) = true := by
      decide +kernel
    rw [hrun, Option.all_some] at hfirst
    exact hfirst
  · have hsecond : (run step (init 0) mailApart).all (fun log ↦
        (log.dispatcher.dispatches.get? 2).all fun dispatch ↦
          (log.dispatcher.caches.rateLimits.get? (dispatch.event.rateKey "smtp")).all
            fun lastSent ↦ lastSent + minutes 5 ≤ dispatch.timestamp) = true := by
      decide +kernel
    rw [hrun, Option.all_some] at hsecond
    exact hsecond

theorem length_deliveries_le_one_mailSent :
    ∃ log, run step (init 0) mailSent = some log ∧ (deliveriesOf log.rows).length = 2 ∧
      ((deliveriesOf log.rows).filter fun alert ↦ alert.1 = ("smtp", "7", "DOWN") ∧
        0 ≤ alert.2 ∧ alert.2 < 0 + minutes 5).length ≤ 1 := by
  obtain ⟨log, hrun⟩ := Option.isSome_iff_exists.mp isSome_run_mailSent
  refine ⟨log, hrun, ?_, length_deliveries_le_one everyStep_mailSent hrun _ _⟩
  have hboth : (run step (init 0) mailSent).all (fun log ↦
      (deliveriesOf log.rows).length = 2) = true := by
    decide +kernel
  rw [hrun, Option.all_some, decide_eq_true_eq] at hboth
  exact hboth

end DeliveryLog

end Lnmp.Alerts
