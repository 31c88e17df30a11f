import Lnmp.Foundation.Dict
import Lnmp.Foundation.JsonText
import Mathlib.Algebra.Order.BigOperators.Group.List

/-!
# Event payloads

`PostgresEventBroker.publish` (`services/event_broker.py`). PostgreSQL takes a notification of less
than 8000 bytes. An event whose JSON text is longer than 7500 bytes is published with as many of its
symptom identifiers as fit, and when this is not enough, with its strings cut to 200 characters.

`announces_iff` says which events are published within the bound: the cut strings still count with
their escapes, up to twelve bytes for a character.
-/

set_option autoImplicit false
set_option relaxedAutoImplicit false

namespace Lnmp.Alerts

open Lnmp.Foundation Lnmp.Foundation.JsonText

/-! ### Events -/

/-- A value of an event. -/
inductive EventValue
  | none
  | bool (value : Bool)
  | int (value : ℤ)
  | text (value : PyString)
  | texts (values : List PyString)
  deriving DecidableEq

/-- The data of an event. -/
abbrev EventData := Dict PyString EventValue

/-- `json.dumps` of a value. -/
def EventValue.dumps : EventValue → List Char
  | .none => "null".toList
  | .bool true => "true".toList
  | .bool false => "false".toList
  | .int value => dumpsInt value
  | .text value => dumpsString value
  | .texts values => dumpsArray (values.map dumpsString)

/-- `json.dumps` of the data. -/
def dumps (data : EventData) : List Char :=
  dumpsObject (data.entries.map fun entry ↦ (entry.1, entry.2.dumps))

/-- The key `symptom_endpoint_ids`. -/
def symptomIdsKey : PyString := ofText "symptom_endpoint_ids"

/-- The key `symptom_count`. -/
def symptomCountKey : PyString := ofText "symptom_count"

/-- The key `truncated`. -/
def truncatedKey : PyString := ofText "truncated"

/-! ### Publication -/

/-- The loop over the symptoms: append them while the text has at most 7200 bytes. -/
def compactLoop (data : EventData) (compacted : List PyString) : List PyString → List PyString
  | [] => compacted
  | symptom :: rest =>
    if 7200 < encodedLength (dumps (data.set symptomIdsKey (.texts (compacted ++ [symptom])))) then
      compacted
    else compactLoop data (compacted ++ [symptom]) rest

/-- The data with the number of symptoms and the mark of a truncation. -/
def marked (data : EventData) (symptoms : List PyString) : EventData :=
  (data.set symptomCountKey (.int symptoms.length)).set truncatedKey (.bool true)

/-- The data with fewer symptoms. -/
def compact (data : EventData) : EventData :=
  match data.get? symptomIdsKey with
  | some (.texts symptoms) =>
    (marked data symptoms).set symptomIdsKey
      (.texts (compactLoop (marked data symptoms) [] symptoms))
  | _ => data

/-- A string of more than 200 characters is cut. -/
def EventValue.shorten : EventValue → EventValue
  | .text value =>
    if 200 < value.length then .text (value.take 200 ++ ofText "... [truncated]") else .text value
  | value => value

/-- The data whose text is published. -/
def publishedData (eventData : EventData) : EventData :=
  if encodedLength (dumps eventData) ≤ 7500 then eventData
  else if encodedLength (dumps (compact eventData)) ≤ 7500 then compact eventData
  else (compact eventData).mapValues EventValue.shorten

/-- The payload that `publish` hands to `pg_notify`. -/
def payload (eventData : EventData) : List Char := dumps (publishedData eventData)

/-- The payload is bounded; it is the event when that fits; and a symptom list that does not fit is
cut to a prefix, with its length and a mark. -/
structure Announces (eventData : EventData) : Prop where
  bounded : encodedLength (payload eventData) ≤ 7500
  unchanged : encodedLength (dumps eventData) ≤ 7500 → payload eventData = dumps eventData
  truncated : ∀ symptoms, eventData.get? symptomIdsKey = some (.texts symptoms) →
    7500 < encodedLength (dumps eventData) →
      ∃ data ids, payload eventData = dumps data ∧ ids <+: symptoms ∧
        data.get? symptomIdsKey = some (.texts ids) ∧
        data.get? symptomCountKey = some (.int symptoms.length) ∧
        data.get? truncatedKey = some (.bool true)

/-! ### Lengths -/

/-- The number of characters of a value in its JSON text. -/
def EventValue.length : EventValue → ℕ
  | .none => 4
  | .bool true => 4
  | .bool false => 5
  | .int value => (dumpsInt value).length
  | .text value => escapedSum value + 2
  | .texts values => max 2 (values.map fun value ↦ escapedSum value + 4).sum

/-- The number of characters when strings are cut. -/
def EventValue.shortLength : EventValue → ℕ
  | .text value =>
    if 200 < value.length then escapedSum (value.take 200) + 17 else escapedSum value + 2
  | value => value.length

/-- The number of characters of a field: two quotes, a colon, a comma and two spaces are added to
the key and the value. -/
def fieldLength (length : EventValue → ℕ) (key : PyString) (value : EventValue) : ℕ :=
  escapedSum key + length value + 6

/-- The number of characters of an event without its symptoms: the list is empty, and their number
and the mark are added. -/
def bareLength (length : EventValue → ℕ) (eventData : EventData) : ℕ :=
  match eventData.get? symptomIdsKey with
  | some (.texts symptoms) =>
    (((eventData.erase symptomIdsKey).erase truncatedKey).erase symptomCountKey).sumBy
        (fieldLength length) +
      fieldLength length symptomCountKey (.int symptoms.length) +
      fieldLength length truncatedKey (.bool true) + fieldLength length symptomIdsKey (.texts [])
  | _ => eventData.sumBy (fieldLength length)

/-- The event fits, or it fits without its symptoms, or it does when also its strings are cut. -/
def FitsShortened (eventData : EventData) : Prop :=
  eventData.sumBy (fieldLength EventValue.length) ≤ 7500 ∨
    bareLength EventValue.length eventData ≤ 7500 ∨
    bareLength EventValue.shortLength eventData ≤ 7500

variable {data eventData : EventData} {symptoms : List PyString}

theorem length_dumps_value (value : EventValue) : value.dumps.length = value.length := by
  cases value with
  | none => rfl
  | bool value => cases value <;> rfl
  | int value => rfl
  | text value => exact length_dumpsString value
  | texts values =>
    rw [EventValue.dumps, dumpsArray, length_bracketed, EventValue.length, List.map_map]
    congr 2
    refine List.map_congr_left fun value _ ↦ ?_
    rw [Function.comp_apply, length_dumpsString]

theorem length_dumps (data : EventData) :
    (dumps data).length = max 2 (data.sumBy (fieldLength EventValue.length)) := by
  rw [dumps, dumpsObject, length_bracketed, List.map_map, List.map_map, Dict.sumBy]
  congr 2
  refine List.map_congr_left fun entry _ ↦ ?_
  simp only [Function.comp_apply, List.length_append, List.length_cons, length_dumpsString,
    length_dumps_value, fieldLength]
  omega

theorem isAscii_dumps_value (value : EventValue) : IsAscii value.dumps := by
  cases value with
  | none => exact isAscii_of_all (by decide)
  | bool value => cases value <;> exact isAscii_of_all (by decide)
  | int value => exact isAscii_dumpsInt value
  | text value => exact isAscii_dumpsString value
  | texts values =>
    refine isAscii_dumpsArray fun item hitem ↦ ?_
    obtain ⟨value, -, rfl⟩ := List.mem_map.mp hitem
    exact isAscii_dumpsString value

theorem encodedLength_dumps (data : EventData) :
    encodedLength (dumps data) = max 2 (data.sumBy (fieldLength EventValue.length)) := by
  rw [← length_dumps]
  refine encodedLength_of_ascii (isAscii_dumpsObject fun field hfield ↦ ?_)
  obtain ⟨entry, -, rfl⟩ := List.mem_map.mp hfield
  exact isAscii_dumps_value entry.2

/-- The empty event fits into every bound from 2 on. -/
theorem encodedLength_dumps_le_iff {bound : ℕ} (hbound : 2 ≤ bound) :
    encodedLength (dumps data) ≤ bound ↔
      data.sumBy (fieldLength EventValue.length) ≤ bound := by
  rw [encodedLength_dumps]
  exact max_le_iff.trans (and_iff_right hbound)

theorem length_shorten (value : EventValue) : value.shorten.length = value.shortLength := by
  cases value with
  | text value =>
    simp only [EventValue.shorten, EventValue.shortLength]
    split_ifs
    · have htail : escapedSum (ofText "... [truncated]") = 15 := by decide
      rw [escapedSum] at htail
      rw [EventValue.length, escapedSum, List.map_append, List.sum_append, htail]
      rfl
    · rfl
  | none | bool | int | texts => rfl

/-! ### The symptoms that fit -/

/-- The loop keeps a prefix of the symptoms, and what it has appended fits. -/
theorem exists_compactLoop_eq (data : EventData) (compacted symptoms : List PyString) :
    ∃ kept, kept <+: symptoms ∧ compactLoop data compacted symptoms = compacted ++ kept ∧
      (kept = [] ∨
        encodedLength (dumps (data.set symptomIdsKey (.texts (compacted ++ kept)))) ≤ 7200) := by
  induction symptoms generalizing compacted with
  | nil => exact ⟨[], List.prefix_rfl, (List.append_nil _).symm, Or.inl rfl⟩
  | cons symptom rest ih =>
    rw [compactLoop]
    split_ifs with hlong
    · exact ⟨[], List.nil_prefix, (List.append_nil _).symm, Or.inl rfl⟩
    · obtain ⟨kept, hprefix, hloop, hfits⟩ := ih (compacted ++ [symptom])
      rw [List.append_assoc, List.singleton_append] at hloop hfits
      refine ⟨symptom :: kept, List.cons_prefix_cons.mpr ⟨rfl, hprefix⟩, hloop, Or.inr ?_⟩
      rcases hfits with rfl | hfits
      · exact Nat.le_of_not_lt hlong
      · exact hfits

theorem keys_ne : symptomCountKey ≠ truncatedKey ∧ symptomCountKey ≠ symptomIdsKey ∧
    truncatedKey ≠ symptomIdsKey := by decide

/-- The length of an event with other symptoms, in which the number of the symptoms and the mark are
set. -/
theorem sumBy_marked (length : EventValue → ℕ) (data : EventData) (symptoms ids : List PyString) :
    ((marked data symptoms).set symptomIdsKey (.texts ids)).sumBy (fieldLength length) =
      (((data.erase symptomIdsKey).erase truncatedKey).erase symptomCountKey).sumBy
          (fieldLength length) +
        fieldLength length symptomCountKey (.int symptoms.length) +
        fieldLength length truncatedKey (.bool true) +
        fieldLength length symptomIdsKey (.texts ids) := by
  obtain ⟨hcountTruncated, hcountIds, htruncatedIds⟩ := keys_ne
  have hcount : (((data.set symptomCountKey (.int symptoms.length)).erase symptomIdsKey).erase
      truncatedKey).sumBy (fieldLength length) =
      fieldLength length symptomCountKey (.int symptoms.length) +
        (((data.erase symptomIdsKey).erase truncatedKey).erase symptomCountKey).sumBy
          (fieldLength length) := by
    rw [← Dict.sumBy_erase_set (data.erase symptomIdsKey) _ hcountTruncated]
    refine Dict.sumBy_congr _ fun found ↦ ?_
    simp only [Dict.get?_erase, Dict.get?_set]
    split_ifs <;> simp_all
  rw [Dict.sumBy_set_eq, marked, Dict.sumBy_erase_set _ _ htruncatedIds, hcount]
  omega

/-! ### The payload -/

/-- What the first truncation gives: a prefix of the symptoms, empty or within its bound. -/
theorem exists_compact_eq (hsymptoms : eventData.get? symptomIdsKey = some (.texts symptoms)) :
    ∃ ids, ids <+: symptoms ∧
      compact eventData = (marked eventData symptoms).set symptomIdsKey (.texts ids) ∧
      (ids = [] ∨ encodedLength (dumps (compact eventData)) ≤ 7200) := by
  obtain ⟨kept, hprefix, hloop, hfits⟩ :=
    exists_compactLoop_eq (marked eventData symptoms) [] symptoms
  have hcompact : compact eventData =
      (marked eventData symptoms).set symptomIdsKey (.texts kept) := by
    rw [compact, hsymptoms]
    dsimp only
    rw [hloop, List.nil_append]
  rw [List.nil_append, ← hcompact] at hfits
  exact ⟨kept, hprefix, hcompact, hfits⟩

/-- Without a list of symptoms the first truncation does nothing. -/
theorem compact_eq_self
    (hnone : ∀ symptoms, eventData.get? symptomIdsKey ≠ some (.texts symptoms)) :
    compact eventData = eventData ∧
      ∀ length, bareLength length eventData = eventData.sumBy (fieldLength length) := by
  constructor
  · unfold compact
    split
    · exact absurd ‹_› (hnone _)
    · rfl
  · intro length
    unfold bareLength
    split
    · exact absurd ‹_› (hnone _)
    · rfl

/-- The length without symptoms is that with an empty list of them. -/
theorem bareLength_eq (length : EventValue → ℕ)
    (hsymptoms : eventData.get? symptomIdsKey = some (.texts symptoms)) :
    bareLength length eventData =
      ((marked eventData symptoms).set symptomIdsKey (.texts [])).sumBy (fieldLength length) := by
  rw [sumBy_marked, bareLength, hsymptoms]

/-- The first truncation is enough exactly when the event fits without its symptoms. -/
theorem encodedLength_compact_le_iff :
    encodedLength (dumps (compact eventData)) ≤ 7500 ↔
      bareLength EventValue.length eventData ≤ 7500 := by
  by_cases hlist : ∃ symptoms, eventData.get? symptomIdsKey = some (.texts symptoms)
  · obtain ⟨symptoms, hsymptoms⟩ := hlist
    obtain ⟨ids, -, hcompact, hfits⟩ := exists_compact_eq hsymptoms
    have hle : fieldLength EventValue.length symptomIdsKey (.texts []) ≤
        fieldLength EventValue.length symptomIdsKey (.texts ids) := by
      have hempty : EventValue.length (.texts []) ≤ EventValue.length (.texts ids) :=
        le_max_left 2 _
      rw [fieldLength, fieldLength]
      omega
    rw [bareLength_eq _ hsymptoms, sumBy_marked]
    constructor
    · intro hfit
      rw [encodedLength_dumps_le_iff (by decide), hcompact, sumBy_marked] at hfit
      omega
    · intro hbare
      rcases hfits with rfl | hfits
      · rw [encodedLength_dumps_le_iff (by decide), hcompact, sumBy_marked]
        exact hbare
      · exact hfits.trans (by decide)
  · push Not at hlist
    obtain ⟨hsame, hbare⟩ := compact_eq_self hlist
    rw [hsame, hbare, encodedLength_dumps_le_iff (by decide)]

theorem sumBy_mapValues_shorten (data : EventData) :
    (data.mapValues EventValue.shorten).sumBy (fieldLength EventValue.length) =
      data.sumBy (fieldLength EventValue.shortLength) := by
  rw [Dict.sumBy_mapValues]
  simp only [fieldLength, length_shorten]
  rfl

/-- Where the first truncation is not enough, the second one is exactly when the event fits without
its symptoms and with its strings cut. -/
theorem encodedLength_shorten_le_iff (hlong : ¬ encodedLength (dumps (compact eventData)) ≤ 7500) :
    encodedLength (dumps ((compact eventData).mapValues EventValue.shorten)) ≤ 7500 ↔
      bareLength EventValue.shortLength eventData ≤ 7500 := by
  rw [encodedLength_dumps_le_iff (by decide), sumBy_mapValues_shorten]
  by_cases hlist : ∃ symptoms, eventData.get? symptomIdsKey = some (.texts symptoms)
  · obtain ⟨symptoms, hsymptoms⟩ := hlist
    obtain ⟨ids, -, hcompact, rfl | hfits⟩ := exists_compact_eq hsymptoms
    · rw [hcompact, bareLength_eq _ hsymptoms]
    · exact absurd (hfits.trans (by decide)) hlong
  · push Not at hlist
    obtain ⟨hsame, hbare⟩ := compact_eq_self hlist
    rw [hsame, hbare]

theorem encodedLength_payload_le_iff :
    encodedLength (payload eventData) ≤ 7500 ↔ FitsShortened eventData := by
  rw [payload, publishedData, FitsShortened, ← encodedLength_dumps_le_iff (by decide),
    ← encodedLength_compact_le_iff]
  split_ifs with hfits hcompact
  · exact iff_of_true hfits (Or.inl hfits)
  · exact iff_of_true hcompact (Or.inr (Or.inl hcompact))
  · rw [encodedLength_shorten_le_iff hcompact, or_iff_right hfits, or_iff_right hcompact]

/-- The symptoms, their number and the mark are in what the first truncation gives, and the second
one leaves them. -/
theorem exists_symptoms_published
    (hsymptoms : eventData.get? symptomIdsKey = some (.texts symptoms))
    (hlong : 7500 < encodedLength (dumps eventData)) :
    ∃ ids, ids <+: symptoms ∧
      (publishedData eventData).get? symptomIdsKey = some (.texts ids) ∧
      (publishedData eventData).get? symptomCountKey = some (.int symptoms.length) ∧
      (publishedData eventData).get? truncatedKey = some (.bool true) := by
  obtain ⟨hcountTruncated, hcountIds, htruncatedIds⟩ := keys_ne
  obtain ⟨ids, hprefix, hcompact, -⟩ := exists_compact_eq hsymptoms
  have hget : (compact eventData).get? symptomIdsKey = some (.texts ids) ∧
      (compact eventData).get? symptomCountKey = some (.int symptoms.length) ∧
      (compact eventData).get? truncatedKey = some (.bool true) := by
    simp [hcompact, marked, Dict.get?_set, hcountTruncated, hcountIds, htruncatedIds]
  obtain ⟨hids, hcount, htruncated⟩ := hget
  refine ⟨ids, hprefix, ?_⟩
  rw [publishedData, if_neg (Nat.not_le.mpr hlong)]
  split_ifs
  · exact ⟨hids, hcount, htruncated⟩
  · rw [Dict.get?_mapValues, Dict.get?_mapValues, Dict.get?_mapValues, hids, hcount, htruncated]
    exact ⟨rfl, rfl, rfl⟩

/-- The payload of an event is bounded, unchanged where the event fits, and cut to a prefix of the
symptoms where it does not, exactly when the event fits, or it fits without its symptoms, or it does
when also its strings are cut to 200 characters. -/
theorem announces_iff (eventData : EventData) : Announces eventData ↔ FitsShortened eventData := by
  constructor
  · intro hannounces
    rw [← encodedLength_payload_le_iff]
    exact hannounces.bounded
  · intro hfits
    refine ⟨encodedLength_payload_le_iff.mpr hfits, fun hshort ↦ ?_, ?_⟩
    · rw [payload, publishedData, if_pos hshort]
    · intro symptoms hsymptoms hlong
      obtain ⟨ids, hprefix, hids, hcount, htruncated⟩ := exists_symptoms_published hsymptoms hlong
      exact ⟨publishedData eventData, ids, rfl, hprefix, hids, hcount, htruncated⟩

/-- A string of 200 emoji. -/
def emojiText : PyString := ofText (String.ofList (List.replicate 200 '😀'))

/-- An event of four such strings. -/
def emojiEvent : EventData :=
  (((Dict.empty.set (ofText "a") (.text emojiText)).set (ofText "b") (.text emojiText)).set
    (ofText "c") (.text emojiText)).set (ofText "d") (.text emojiText)

theorem length_emojiText : EventValue.length (.text emojiText) = 2402 ∧
    EventValue.shortLength (.text emojiText) = 2402 := by
  have hsum : escapedSum emojiText = 2400 := by
    rw [escapedSum, emojiText, ofText, String.toList_ofList, List.map_replicate,
      List.map_replicate, List.sum_replicate]
    rfl
  have hshort : ¬ 200 < emojiText.length := by
    rw [emojiText, ofText, List.length_map, String.toList_ofList, List.length_replicate]
    exact Nat.lt_irrefl 200
  constructor
  · rw [EventValue.length, hsum]
  · rw [EventValue.shortLength, if_neg hshort, hsum]

theorem sumBy_emojiEvent (length : EventValue → ℕ) (hlength : length (.text emojiText) = 2402) :
    emojiEvent.sumBy (fieldLength length) = 9636 := by
  have hentries : emojiEvent.entries =
      [(ofText "a", .text emojiText), (ofText "b", .text emojiText), (ofText "c", .text emojiText),
        (ofText "d", .text emojiText)] := rfl
  rw [Dict.sumBy, hentries]
  simp only [List.map_cons, List.map_nil, fieldLength, hlength]
  rfl

/-- No string is cut, and the payload is too long. -/
theorem not_announces_emojiEvent :
    emojiEvent.entries.length = 4 ∧ 7500 < encodedLength (payload emojiEvent) ∧
      ¬ Announces emojiEvent := by
  obtain ⟨hlength, hshort⟩ := length_emojiText
  have hbare : ∀ length, bareLength length emojiEvent = emojiEvent.sumBy (fieldLength length) :=
    fun _ ↦ rfl
  have hlong : 7500 < encodedLength (payload emojiEvent) := by
    rw [← not_le, encodedLength_payload_le_iff, FitsShortened, hbare, hbare,
      sumBy_emojiEvent _ hlength, sumBy_emojiEvent _ hshort]
    decide
  exact ⟨rfl, hlong, fun h ↦ absurd h.bounded (Nat.not_le.mpr hlong)⟩

end Lnmp.Alerts
