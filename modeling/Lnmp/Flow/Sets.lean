import Lnmp.Flow.Decoding

/-!
# What a set does

One lemma for each thing that the template parsers do to their state: the sweep of expired
templates, a data set with and without a template, and the arrival of a template, which decodes the
data sets that wait for it. They say what is left under every key, and which flows come out as long
as no record raises.
-/

set_option autoImplicit false
set_option relaxedAutoImplicit false

namespace Lnmp.Flow

open Lnmp.Foundation

variable {Context Time : Type} {dialect : Dialect Context Time} {now : ℚ} {exporterIp : String}
  {sourceId : ℕ} {context : Context} {parser : TemplateParser Context}

/-! ### Sequences -/

theorem parseAll_singleton {Item Flow State : Type}
    (parse : State → Item → State × Option (List Flow)) (state : State) (item : Item) :
    parseAll parse state [item] = parse state item := by
  rw [parseAll]
  split
  · exact ‹_ = _›.symm
  · simp [parseAll, *]

/-- Items are processed in two parts. -/
theorem parseAll_append {Item Flow State : Type}
    (parse : State → Item → State × Option (List Flow)) (state : State)
    (first second : List Item) :
    parseAll parse state (first ++ second) =
      match parseAll parse state first with
      | (next, none) => (next, none)
      | (next, some flows) =>
        ((parseAll parse next second).1, (parseAll parse next second).2.map (flows ++ ·)) := by
  induction first generalizing state with
  | nil => simp [parseAll]
  | cons item first ih =>
    rw [List.cons_append, parseAll, parseAll]
    rcases parse state item with ⟨next, _ | flows⟩
    · rfl
    · dsimp only
      rw [ih]
      rcases parseAll parse next first with ⟨middle, _ | more⟩
      · rfl
      · simp [Function.comp_def]

/-- The last item is processed in the state that the others leave. -/
theorem parseAll_concat {Item Flow State : Type}
    {parse : State → Item → State × Option (List Flow)} {state next : State} {items : List Item}
    {flows : List Flow} (hparse : parseAll parse state items = (next, some flows)) (item : Item) :
    parseAll parse state (items ++ [item]) =
      ((parse next item).1, (parse next item).2.map (flows ++ ·)) := by
  rw [parseAll_append, hparse]
  dsimp only
  rw [parseAll_singleton]

theorem parseAll_map {Item Source Flow State : Type}
    (parse : State → Item → State × Option (List Flow)) (item : Source → Item) (state : State)
    (sources : List Source) :
    parseAll parse state (sources.map item) =
      parseAll (fun state source ↦ parse state (item source)) state sources := by
  induction sources generalizing state with
  | nil => rfl
  | cons source sources ih =>
    rw [List.map_cons, parseAll, parseAll]
    split
    · rfl
    · rw [ih]

/-- Items that all leave the state as it is give their flows one after the other. -/
theorem parseAll_of_keeps {Item State : Type}
    {parse : State → Item → State × Option (List (TemplateFlow dialect))} {state : State}
    {items : List Item} (flows : Item → List FlowDict)
    (hkeeps : ∀ item ∈ items,
      (parse state item).1 = state ∧ dictsOf (parse state item).2 = some (flows item)) :
    (parseAll parse state items).1 = state ∧
      dictsOf (parseAll parse state items).2 = some (items.flatMap flows) := by
  induction items with
  | nil => exact ⟨rfl, rfl⟩
  | cons item items ih =>
    rw [List.forall_mem_cons] at hkeeps
    obtain ⟨⟨hstate, hitem⟩, hrest⟩ := hkeeps
    obtain ⟨hfinish, hflows⟩ := ih hrest
    obtain ⟨first, hfirst, hmap⟩ := Option.map_eq_some_iff.mp hitem
    have hparse : parse state item = (state, some first) := Prod.ext hstate hfirst
    obtain ⟨more, hmore, hmoreMap⟩ := Option.map_eq_some_iff.mp hflows
    rw [parseAll, hparse]
    dsimp only
    rw [hmore]
    refine ⟨hfinish, ?_⟩
    rw [List.flatMap_cons, ← hmap, ← hmoreMap, dictsOf, Option.map_some, Option.map_some,
      List.map_append]

/-- Items that all leave the state as it is raise when one of them does. -/
theorem parseAll_eq_none_iff {Item Flow State : Type}
    {parse : State → Item → State × Option (List Flow)} {state : State} {items : List Item}
    (hkeeps : ∀ item ∈ items, (parse state item).1 = state) :
    (parseAll parse state items).1 = state ∧
      ((parseAll parse state items).2 = none ↔ ∃ item ∈ items, (parse state item).2 = none) := by
  induction items with
  | nil => exact ⟨rfl, by simp [parseAll]⟩
  | cons item items ih =>
    rw [List.forall_mem_cons] at hkeeps
    obtain ⟨hfinish, hraises⟩ := ih hkeeps.2
    rw [parseAll, List.exists_mem_cons_iff, ← hraises]
    split
    · rename_i next hparse
      rw [hparse] at hkeeps ⊢
      exact ⟨hkeeps.1, by simp⟩
    · rename_i next flows hparse
      rw [hparse] at hkeeps ⊢
      obtain rfl : next = state := hkeeps.1
      exact ⟨hfinish, by simp⟩

/-! ### Expired templates -/

/-- The template has outlived its lifetime. -/
def Template.isExpired (template : Template) (now : ℚ) : Bool :=
  templateTtl < now - template.createdAt

/-- The sweep removes the expired templates and no other. -/
theorem get?_cleanupExpired (now : ℚ) (parser : TemplateParser Context)
    (key : String × ℕ × ℕ) :
    (parser.cleanupExpired now).templates.get? key =
      (parser.templates.get? key).filter fun template ↦ !template.isExpired now := by
  have hexpired : key ∈ (parser.templates.entries.filter fun entry ↦
      decide (templateTtl < now - entry.2.createdAt)).map Prod.fst ↔
      ∃ template, parser.templates.get? key = some template ∧ template.isExpired now = true := by
    simp only [List.mem_map, List.mem_filter, Prod.exists, exists_and_right, exists_eq_right,
      Dict.get?_eq_some_iff]
    rfl
  rw [TemplateParser.cleanupExpired]
  dsimp only
  rw [Dict.get?_foldl_erase]
  cases hget : parser.templates.get? key with
  | none => rw [Option.filter_none, ite_self]
  | some template =>
    by_cases hold : template.isExpired now = true
    · rw [if_pos (hexpired.mpr ⟨template, hget, hold⟩)]
      simp [Option.filter, hold]
    · rw [if_neg fun hmem ↦ hold ?_]
      · simp [Option.filter, hold]
      · obtain ⟨same, hsame, hexpires⟩ := hexpired.mp hmem
        rwa [Option.some.inj (hget.symm.trans hsame)]

/-- A template within its lifetime survives the sweep. -/
theorem get?_cleanupExpired_of_live {key : String × ℕ × ℕ} {template : Template}
    (hget : parser.templates.get? key = some template)
    (hlive : now - template.createdAt ≤ templateTtl) :
    (parser.cleanupExpired now).templates.get? key = some template := by
  rw [get?_cleanupExpired, hget, Option.filter_some, if_pos]
  rw [Template.isExpired, Bool.not_eq_true', decide_eq_false_iff_not]
  exact not_lt.mpr hlive

/-! ### Data sets -/

/-- The data sets that wait under a key. -/
def TemplateParser.waiting (parser : TemplateParser Context) (key : String × ℕ) :
    List (Orphan Context) := (parser.orphanBuffer.get? key).getD []

@[simp] theorem waiting_cleanupExpired (key : String × ℕ) :
    (parser.cleanupExpired now).waiting key = parser.waiting key := rfl

/-- The template that the parser reads data sets by: one that has a length. -/
def TemplateParser.usable (parser : TemplateParser Context) (key : String × ℕ × ℕ) :
    Option Template :=
  (parser.templates.get? key).filter fun template ↦ totalLength template.fields ≠ 0

theorem parseDataSet_usable (templateId : ℕ) (payload : List UInt8) :
    parseDataSet dialect exporterIp sourceId parser templateId payload context =
      match parser.usable (exporterIp, sourceId, templateId) with
      | none => some none
      | some template =>
        (readRecords dialect (splitRecords exporterIp context template.fields payload)).map
          some := by
  rw [parseDataSet, TemplateParser.usable]
  cases parser.templates.get? (exporterIp, sourceId, templateId) with
  | none => rfl
  | some template =>
    by_cases hzero : totalLength template.fields = 0
    · simp [Option.filter, hzero]
    · simp [Option.filter, hzero]

/-- A template set is parsed template by template. -/
theorem parseSet_templates {set : ℕ × List UInt8} (htemplates : set.1 = dialect.templateSetId) :
    parseSet dialect now exporterIp sourceId context parser set =
      parseAll (parseTemplate dialect now exporterIp sourceId) parser
        (splitTemplates dialect.readSpec set.2.length set.2) := by
  rw [parseSet, if_pos htemplates]

/-- A data set with a template leaves the parser as it is. -/
theorem parseSet_of_usable {set : ℕ × List UInt8} {template : Template}
    (htemplates : set.1 ≠ dialect.templateSetId) (hdata : 256 ≤ set.1)
    (husable : parser.usable (exporterIp, sourceId, set.1) = some template) :
    parseSet dialect now exporterIp sourceId context parser set =
      (parser, readRecords dialect (splitRecords exporterIp context template.fields set.2)) := by
  rw [parseSet, if_neg htemplates, if_pos hdata, parseDataSet_usable, husable]
  dsimp only
  cases readRecords dialect (splitRecords exporterIp context template.fields set.2) <;> rfl

/-- The parser with a data set in the buffer. -/
def TemplateParser.buffer (parser : TemplateParser Context) (key : String × ℕ)
    (orphan : Orphan Context) : TemplateParser Context :=
  { parser with
    orphanBuffer := parser.orphanBuffer.set key (appendOrphan (parser.waiting key) orphan) }

/-- A data set without a template waits for it. -/
theorem parseSet_of_unusable {set : ℕ × List UInt8} (htemplates : set.1 ≠ dialect.templateSetId)
    (hdata : 256 ≤ set.1) (hnone : parser.usable (exporterIp, sourceId, set.1) = none) :
    parseSet dialect now exporterIp sourceId context parser set =
      (parser.buffer (exporterIp, sourceId) ⟨now, set.1, set.2, context⟩, some []) := by
  rw [parseSet, if_neg htemplates, if_pos hdata, parseDataSet_usable, hnone]
  rfl

/-- Data sets without templates all wait for them. -/
theorem parseAll_of_unusable {sets : List (ℕ × List UInt8)}
    (htemplates : ∀ set ∈ sets, set.1 ≠ dialect.templateSetId) (hdata : ∀ set ∈ sets, 256 ≤ set.1)
    (hnone : ∀ set ∈ sets, parser.usable (exporterIp, sourceId, set.1) = none) :
    (parseAll (parseSet dialect now exporterIp sourceId context) parser sets).1.templates =
        parser.templates ∧
      (parseAll (parseSet dialect now exporterIp sourceId context) parser sets).2 = some [] := by
  induction sets generalizing parser with
  | nil => exact ⟨rfl, rfl⟩
  | cons set sets ih =>
    rw [List.forall_mem_cons] at htemplates hdata hnone
    have hbuffered : ∀ other ∈ sets,
        (parser.buffer (exporterIp, sourceId) ⟨now, set.1, set.2, context⟩).usable
          (exporterIp, sourceId, other.1) = none := hnone.2
    obtain ⟨hkept, hflows⟩ := ih htemplates.2 hdata.2 hbuffered
    rw [parseAll, parseSet_of_unusable htemplates.1 hdata.1 hnone.1]
    dsimp only
    rw [hkept, hflows]
    exact ⟨rfl, rfl⟩

theorem waiting_set (parser : TemplateParser Context) (key other : String × ℕ)
    (orphans : List (Orphan Context)) :
    TemplateParser.waiting { parser with orphanBuffer := parser.orphanBuffer.set key orphans }
      other = if other = key then orphans else parser.waiting other := by
  rw [TemplateParser.waiting, Dict.get?_set]
  split_ifs <;> rfl

/-! ### Waiting data sets -/

/-- The data set has not waited too long. -/
def Orphan.isFresh (orphan : Orphan Context) (now : ℚ) : Bool :=
  !(orphanTtl < now - orphan.stamp : Bool)

theorem Orphan.isFresh_iff {orphan : Orphan Context} :
    orphan.isFresh now = true ↔ ¬ orphanTtl < now - orphan.stamp := by
  rw [Orphan.isFresh, Bool.not_eq_true', decide_eq_false_iff_not]

/-- The loop over the buffer decodes the fresh data sets of the template and keeps the others that
are fresh. -/
theorem drainBuffer_eq {templateId : ℕ} {decode : Orphan Context → List FlowDict}
    {buffer : List (Orphan Context)}
    (hparse : ∀ orphan ∈ buffer, orphan.isFresh now → orphan.templateId = templateId →
      ∃ parsed, parseDataSet dialect exporterIp sourceId parser templateId orphan.payload
        orphan.context = some parsed ∧ (parsed.getD []).map TemplateFlow.flow = decode orphan)
    (remaining : List (Orphan Context)) :
    (drainBuffer dialect now exporterIp sourceId parser templateId remaining buffer).1 =
        remaining ++ buffer.filter fun orphan ↦
          orphan.isFresh now && orphan.templateId ≠ templateId ∧
      dictsOf (drainBuffer dialect now exporterIp sourceId parser templateId remaining buffer).2 =
        some ((buffer.filter fun orphan ↦
          orphan.isFresh now && orphan.templateId = templateId).flatMap decode) := by
  induction buffer generalizing remaining with
  | nil => exact ⟨(List.append_nil _).symm, rfl⟩
  | cons orphan buffer ih =>
    rw [List.forall_mem_cons] at hparse
    rw [drainBuffer]
    by_cases hfresh : orphan.isFresh now = true
    · rw [if_neg (Orphan.isFresh_iff.mp hfresh)]
      by_cases hsame : orphan.templateId = templateId
      · obtain ⟨parsed, hparsed, hdecode⟩ := hparse.1 hfresh hsame
        obtain ⟨hleft, hflows⟩ := ih hparse.2 remaining
        obtain ⟨flows, hsome, hmap⟩ := Option.map_eq_some_iff.mp hflows
        rw [if_pos hsame, hparsed]
        dsimp only
        rw [hsome]
        constructor
        · simp [hfresh, hsame, hleft]
        · simp [dictsOf, hfresh, hsame, hmap, hdecode]
      · obtain ⟨hleft, hflows⟩ := ih hparse.2 (remaining ++ [orphan])
        rw [if_neg hsame, hleft, hflows]
        simp [hfresh, hsame]
    · obtain ⟨hleft, hflows⟩ := ih hparse.2 remaining
      rw [if_pos (not_not.mp fun h ↦ hfresh (Orphan.isFresh_iff.mpr h)), hleft, hflows]
      simp [hfresh]

/-- A parser after the data sets of a template have been decoded: the templates are what they were,
and of the waiting data sets of the key those remain that are fresh and have another template. -/
structure Drained (now : ℚ) (key : String × ℕ) (templateId : ℕ)
    (parser next : TemplateParser Context) : Prop where
  templates : next.templates = parser.templates
  waiting : next.waiting key = (parser.waiting key).filter fun orphan ↦
    orphan.isFresh now && orphan.templateId ≠ templateId
  others : ∀ other ≠ key, next.waiting other = parser.waiting other

/-- Only a buffer that is not empty is drained. -/
theorem drainOrphans_eq (templateId : ℕ) :
    drainOrphans dialect now exporterIp sourceId parser templateId =
      if parser.waiting (exporterIp, sourceId) = [] then (parser, some [])
      else
        ({ parser with
          orphanBuffer := parser.orphanBuffer.set (exporterIp, sourceId)
            (drainBuffer dialect now exporterIp sourceId parser templateId []
              (parser.waiting (exporterIp, sourceId))).1 },
          (drainBuffer dialect now exporterIp sourceId parser templateId []
            (parser.waiting (exporterIp, sourceId))).2) := by
  rw [drainOrphans, TemplateParser.waiting]
  rcases parser.orphanBuffer.get? (exporterIp, sourceId) with _ | _ | ⟨orphan, buffer⟩
  · rfl
  · rfl
  · rfl

theorem drained_drainOrphans (parser : TemplateParser Context) {templateId : ℕ}
    (decode : Orphan Context → List FlowDict)
    (hparse : ∀ orphan ∈ parser.waiting (exporterIp, sourceId), orphan.isFresh now →
      orphan.templateId = templateId →
      ∃ parsed, parseDataSet dialect exporterIp sourceId parser templateId orphan.payload
        orphan.context = some parsed ∧ (parsed.getD []).map TemplateFlow.flow = decode orphan) :
    Drained now (exporterIp, sourceId) templateId parser
        (drainOrphans dialect now exporterIp sourceId parser templateId).1 ∧
      dictsOf (drainOrphans dialect now exporterIp sourceId parser templateId).2 =
        some (((parser.waiting (exporterIp, sourceId)).filter fun orphan ↦
          orphan.isFresh now && orphan.templateId = templateId).flatMap decode) := by
  rw [drainOrphans_eq]
  split_ifs with hnil
  · rw [hnil]
    exact ⟨⟨rfl, by rw [hnil]; rfl, fun _ _ ↦ rfl⟩, rfl⟩
  · obtain ⟨hleft, hflows⟩ := drainBuffer_eq hparse []
    refine ⟨⟨rfl, ?_, fun other hother ↦ ?_⟩, hflows⟩
    · rw [waiting_set, if_pos rfl, hleft, List.nil_append]
    · rw [waiting_set, if_neg hother]

/-- The parser with a template. -/
def TemplateParser.announce (parser : TemplateParser Context) (key : String × ℕ × ℕ)
    (template : Template) : TemplateParser Context :=
  { parser with templates := parser.templates.set key template }

@[simp] theorem waiting_announce (key : String × ℕ × ℕ) (template : Template)
    (other : String × ℕ) : (parser.announce key template).waiting other = parser.waiting other :=
  rfl

theorem get?_announce (key : String × ℕ × ℕ) (template : Template) (other : String × ℕ × ℕ) :
    (parser.announce key template).templates.get? other =
      if other = key then some template else parser.templates.get? other := Dict.get?_set ..

/-- A template is stored, and the data sets that waited for it are decoded. -/
theorem drained_parseTemplate (dialect : Dialect Context Time) (parser : TemplateParser Context)
    {templateId : ℕ} {fields : List FieldSpec} (decode : Orphan Context → List FlowDict)
    (hparse : ∀ orphan ∈ parser.waiting (exporterIp, sourceId), orphan.isFresh now →
      orphan.templateId = templateId →
      ∃ parsed, parseDataSet dialect exporterIp sourceId
          (parser.announce (exporterIp, sourceId, templateId) ⟨fields, now⟩) templateId
          orphan.payload orphan.context = some parsed ∧
        (parsed.getD []).map TemplateFlow.flow = decode orphan) :
    Drained now (exporterIp, sourceId) templateId
        (parser.announce (exporterIp, sourceId, templateId) ⟨fields, now⟩)
        (parseTemplate dialect now exporterIp sourceId parser (templateId, fields)).1 ∧
      dictsOf (parseTemplate dialect now exporterIp sourceId parser (templateId, fields)).2 =
        some (((parser.waiting (exporterIp, sourceId)).filter fun orphan ↦
          orphan.isFresh now && orphan.templateId = templateId).flatMap decode) :=
  drained_drainOrphans (parser.announce (exporterIp, sourceId, templateId) ⟨fields, now⟩) decode
    hparse

end Lnmp.Flow
