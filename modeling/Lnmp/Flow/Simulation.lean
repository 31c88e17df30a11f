import Lnmp.Flow.Arrivals

/-!
# Parsers that agree

Two parsers agree at a key when they have the same templates under it, and the same data sets wait,
up to a relation between the times of their packets (`Likeness.AgreeAt`). `arrive_agree` is the
simulation: the same arrival keeps them in agreement, and gives the same flows, up to a relation
between flows, as long as records are read alike (`Likeness`). `arrive_elsewhere` is the frame rule:
an arrival under one key does nothing under the others, except that a sweep is for all keys.
-/

set_option autoImplicit false
set_option relaxedAutoImplicit false

namespace Lnmp.Flow

open Lnmp.Foundation

/-! ### Likeness -/

/-- The same flows, or twice nothing because a record raised, if that may happen. -/
inductive SameFlows (mayRaise : Prop) (sameFlow : FlowDict → FlowDict → Prop) :
    Option (List FlowDict) → Option (List FlowDict) → Prop
  | flows {first second : List FlowDict} (hsame : List.Forall₂ sameFlow first second) :
    SameFlows mayRaise sameFlow (some first) (some second)
  | raised (hmay : mayRaise) : SameFlows mayRaise sameFlow none none

/-- Two dialects that read records alike: for some templates, and for some times of packets. -/
structure Likeness (Context Time Context' Time' : Type) where
  dialect : Dialect Context Time
  dialect' : Dialect Context' Time'
  SameContext : Context → Context' → Prop
  Covers : List FieldSpec → Prop
  SameFlow : FlowDict → FlowDict → Prop
  mayRaise : Prop
  reads : ∀ exporterIp fields payload context context', Covers fields →
    SameContext context context' →
    SameFlows mayRaise SameFlow
      (dictsOf (readRecords dialect (splitRecords exporterIp context fields payload)))
      (dictsOf (readRecords dialect' (splitRecords exporterIp context' fields payload)))

variable {Context Time Context' Time' : Type}

/-- The same data set waits in two buffers. -/
structure Likeness.SameOrphan (like : Likeness Context Time Context' Time')
    (orphan : Orphan Context) (orphan' : Orphan Context') : Prop where
  stamp : orphan.stamp = orphan'.stamp
  templateId : orphan.templateId = orphan'.templateId
  payload : orphan.payload = orphan'.payload
  context : like.SameContext orphan.context orphan'.context

/-- The same arrives at two parsers. -/
inductive Likeness.SameArrival (like : Likeness Context Time Context' Time') :
    Arrival Context → Arrival Context' → Prop
  | sweep (now : ℚ) : SameArrival like (.sweep now) (.sweep now)
  | template (now : ℚ) (id : ℕ) {fields : List FieldSpec} (hfields : like.Covers fields) :
    SameArrival like (.template now id fields) (.template now id fields)
  | dataSet (now : ℚ) (id : ℕ) (payload : List UInt8) {context : Context} {context' : Context'}
      (hcontext : like.SameContext context context') :
    SameArrival like (.dataSet now id payload context) (.dataSet now id payload context')

/-- Two parsers agree at a key. -/
structure Likeness.AgreeAt (like : Likeness Context Time Context' Time') (key : String × ℕ)
    (parser : TemplateParser Context) (parser' : TemplateParser Context') : Prop where
  templates : ∀ id, parser.templates.get? (key.1, key.2, id) =
    parser'.templates.get? (key.1, key.2, id)
  covered : ∀ id template, parser.templates.get? (key.1, key.2, id) = some template →
    like.Covers template.fields
  waiting : List.Forall₂ like.SameOrphan (parser.waiting key) (parser'.waiting key)

variable {like : Likeness Context Time Context' Time'} {parser : TemplateParser Context}
  {parser' : TemplateParser Context'} {exporterIp : String} {sourceId : ℕ}

theorem SameFlows.append {mayRaise : Prop} {sameFlow : FlowDict → FlowDict → Prop}
    {dialect : Dialect Context Time} {dialect' : Dialect Context' Time'}
    {first : List (TemplateFlow dialect)} {first' : List (TemplateFlow dialect')}
    {rest : Option (List (TemplateFlow dialect))} {rest' : Option (List (TemplateFlow dialect'))}
    (hfirst : SameFlows mayRaise sameFlow (dictsOf (some first)) (dictsOf (some first')))
    (hrest : SameFlows mayRaise sameFlow (dictsOf rest) (dictsOf rest')) :
    SameFlows mayRaise sameFlow (dictsOf (rest.map (first ++ ·)))
      (dictsOf (rest'.map (first' ++ ·))) := by
  rcases hfirst with ⟨hfirst⟩
  cases rest with
  | none =>
    cases rest' with
    | none => exact hrest
    | some rest' => cases hrest
  | some rest =>
    cases rest' with
    | none => cases hrest
    | some rest' =>
      rcases hrest with ⟨hrest⟩
      rw [Option.map_some, Option.map_some, dictsOf, dictsOf, Option.map_some, Option.map_some,
        List.map_append, List.map_append]
      exact .flows (List.rel_append hfirst hrest)

/-! ### Data sets -/

namespace Likeness

/-- Parsers that agree at a key can use the same templates. -/
theorem AgreeAt.usable_eq (hagree : like.AgreeAt (exporterIp, sourceId) parser parser') (id : ℕ) :
    parser.usable (exporterIp, sourceId, id) = parser'.usable (exporterIp, sourceId, id) := by
  rw [TemplateParser.usable, TemplateParser.usable, hagree.templates]

theorem AgreeAt.reads (hagree : like.AgreeAt (exporterIp, sourceId) parser parser') {id : ℕ}
    {template : Template} (husable : parser.usable (exporterIp, sourceId, id) = some template)
    (payload : List UInt8) {context : Context} {context' : Context'}
    (hcontext : like.SameContext context context') :
    SameFlows like.mayRaise like.SameFlow
      (dictsOf (readRecords like.dialect
        (splitRecords exporterIp context template.fields payload)))
      (dictsOf (readRecords like.dialect'
        (splitRecords exporterIp context' template.fields payload))) :=
  like.reads exporterIp template.fields payload context context'
    (hagree.covered id template (Option.filter_eq_some_iff.mp husable).1) hcontext

/-- The same data set in both buffers. -/
theorem AgreeAt.buffer (hagree : like.AgreeAt (exporterIp, sourceId) parser parser')
    {orphan : Orphan Context} {orphan' : Orphan Context'}
    (horphan : like.SameOrphan orphan orphan') :
    like.AgreeAt (exporterIp, sourceId) (parser.buffer (exporterIp, sourceId) orphan)
      (parser'.buffer (exporterIp, sourceId) orphan') where
  templates := hagree.templates
  covered := hagree.covered
  waiting := by
    rw [TemplateParser.buffer, TemplateParser.buffer, waiting_set, waiting_set, if_pos rfl,
      if_pos rfl, appendOrphan, appendOrphan, hagree.waiting.length_eq]
    exact List.forall₂_drop _ (List.rel_append hagree.waiting (.cons horphan .nil))

/-- A data set has the same flows in both parsers, or waits in both. -/
theorem AgreeAt.receiveDataSet (hagree : like.AgreeAt (exporterIp, sourceId) parser parser')
    (now : ℚ) (id : ℕ) (payload : List UInt8) {context : Context} {context' : Context'}
    (hcontext : like.SameContext context context') :
    like.AgreeAt (exporterIp, sourceId)
        (receiveDataSet like.dialect exporterIp sourceId parser now id payload context).1
        (receiveDataSet like.dialect' exporterIp sourceId parser' now id payload context').1 ∧
      SameFlows like.mayRaise like.SameFlow
        (dictsOf (receiveDataSet like.dialect exporterIp sourceId parser now id payload context).2)
        (dictsOf
          (receiveDataSet like.dialect' exporterIp sourceId parser' now id payload
            context').2) := by
  rw [Flow.receiveDataSet, Flow.receiveDataSet, ← hagree.usable_eq]
  cases husable : parser.usable (exporterIp, sourceId, id) with
  | none => exact ⟨hagree.buffer ⟨rfl, rfl, rfl, hcontext⟩, .flows .nil⟩
  | some template => exact ⟨hagree, hagree.reads husable payload hcontext⟩

/-! ### Waiting data sets -/

/-- What the loop over the buffer does, in both parsers. -/
theorem AgreeAt.drainBuffer (hagree : like.AgreeAt (exporterIp, sourceId) parser parser')
    (now : ℚ) (id : ℕ) {buffer remaining : List (Orphan Context)}
    {buffer' remaining' : List (Orphan Context')}
    (hbuffer : List.Forall₂ like.SameOrphan buffer buffer')
    (hremaining : List.Forall₂ like.SameOrphan remaining remaining') :
    List.Forall₂ like.SameOrphan
        (drainBuffer like.dialect now exporterIp sourceId parser id remaining buffer).1
        (drainBuffer like.dialect' now exporterIp sourceId parser' id remaining' buffer').1 ∧
      SameFlows like.mayRaise like.SameFlow
        (dictsOf (drainBuffer like.dialect now exporterIp sourceId parser id remaining buffer).2)
        (dictsOf
          (drainBuffer like.dialect' now exporterIp sourceId parser' id remaining' buffer').2) := by
  induction hbuffer generalizing remaining remaining' with
  | nil => exact ⟨hremaining, .flows .nil⟩
  | @cons orphan orphan' buffer buffer' horphan hbuffer ih =>
    rw [Flow.drainBuffer, Flow.drainBuffer, ← horphan.stamp, ← horphan.templateId]
    split_ifs with hold hsame
    · exact ih hremaining
    · rw [parseDataSet_usable, parseDataSet_usable, ← hagree.usable_eq, ← horphan.payload]
      obtain ⟨hleft, hflows⟩ := ih hremaining
      cases husable : parser.usable (exporterIp, sourceId, id) with
      | none => exact ⟨hleft, SameFlows.append (.flows .nil) hflows⟩
      | some template =>
        have hreads := hagree.reads husable orphan.payload horphan.context
        dsimp only
        cases hread : readRecords like.dialect
          (splitRecords exporterIp orphan.context template.fields orphan.payload) with
        | none =>
          cases hread' : readRecords like.dialect'
              (splitRecords exporterIp orphan'.context template.fields orphan.payload) with
          | none => exact ⟨hbuffer, by rwa [hread, hread'] at hreads⟩
          | some flows' =>
            rw [hread, hread'] at hreads
            cases hreads
        | some flows =>
          cases hread' : readRecords like.dialect'
              (splitRecords exporterIp orphan'.context template.fields orphan.payload) with
          | none =>
            rw [hread, hread'] at hreads
            cases hreads
          | some flows' =>
            rw [hread, hread'] at hreads
            exact ⟨hleft, SameFlows.append hreads hflows⟩
    · exact ih (List.rel_append hremaining (.cons horphan .nil))

/-- A buffer that is emptied into another one. -/
theorem AgreeAt.setBuffer (hagree : like.AgreeAt (exporterIp, sourceId) parser parser')
    {buffer : List (Orphan Context)} {buffer' : List (Orphan Context')}
    (hbuffer : List.Forall₂ like.SameOrphan buffer buffer') :
    like.AgreeAt (exporterIp, sourceId)
      { parser with orphanBuffer := parser.orphanBuffer.set (exporterIp, sourceId) buffer }
      { parser' with orphanBuffer := parser'.orphanBuffer.set (exporterIp, sourceId) buffer' } where
  templates := hagree.templates
  covered := hagree.covered
  waiting := by
    rw [waiting_set, waiting_set, if_pos rfl, if_pos rfl]
    exact hbuffer

/-- The data sets of a template are decoded in both parsers, and the others go on waiting. -/
theorem AgreeAt.drainOrphans (hagree : like.AgreeAt (exporterIp, sourceId) parser parser')
    (now : ℚ) (id : ℕ) :
    like.AgreeAt (exporterIp, sourceId)
        (drainOrphans like.dialect now exporterIp sourceId parser id).1
        (drainOrphans like.dialect' now exporterIp sourceId parser' id).1 ∧
      SameFlows like.mayRaise like.SameFlow
        (dictsOf (drainOrphans like.dialect now exporterIp sourceId parser id).2)
        (dictsOf (drainOrphans like.dialect' now exporterIp sourceId parser' id).2) := by
  obtain ⟨hbuffer, hflows⟩ := hagree.drainBuffer now id hagree.waiting .nil
  rw [drainOrphans_eq, drainOrphans_eq]
  by_cases hnil : parser.waiting (exporterIp, sourceId) = []
  · have hnil' : parser'.waiting (exporterIp, sourceId) = [] := by
      rw [← List.length_eq_zero_iff, ← hagree.waiting.length_eq, hnil, List.length_nil]
    rw [if_pos hnil, if_pos hnil']
    exact ⟨hagree, .flows .nil⟩
  · have hne : parser'.waiting (exporterIp, sourceId) ≠ [] := by
      intro hnil'
      rw [← List.length_eq_zero_iff, ← hagree.waiting.length_eq, List.length_eq_zero_iff] at hnil'
      exact hnil hnil'
    rw [if_neg hnil, if_neg hne]
    exact ⟨hagree.setBuffer hbuffer, hflows⟩

theorem AgreeAt.announce (hagree : like.AgreeAt (exporterIp, sourceId) parser parser') (id : ℕ)
    {template : Template} (hcovered : like.Covers template.fields) :
    like.AgreeAt (exporterIp, sourceId) (parser.announce (exporterIp, sourceId, id) template)
      (parser'.announce (exporterIp, sourceId, id) template) where
  templates := by
    intro other
    rw [get?_announce, get?_announce, hagree.templates]
  covered := by
    intro other stored hget
    rw [get?_announce] at hget
    split_ifs at hget with hsame
    · exact Option.some.inj hget ▸ hcovered
    · exact hagree.covered other stored hget
  waiting := hagree.waiting

/-- A sweep keeps parsers in agreement, at every key. -/
theorem AgreeAt.cleanupExpired {key : String × ℕ} (hagree : like.AgreeAt key parser parser')
    (now : ℚ) : like.AgreeAt key (parser.cleanupExpired now) (parser'.cleanupExpired now) where
  templates := by
    intro id
    rw [get?_cleanupExpired, get?_cleanupExpired, hagree.templates]
  covered := by
    intro id template hget
    rw [get?_cleanupExpired] at hget
    exact hagree.covered id template (Option.filter_eq_some_iff.mp hget).1
  waiting := hagree.waiting

/-! ### Arrivals -/

/-- The simulation, for one arrival. -/
theorem arrive_agree (hagree : like.AgreeAt (exporterIp, sourceId) parser parser')
    {arrival : Arrival Context} {arrival' : Arrival Context'}
    (hsame : like.SameArrival arrival arrival') :
    like.AgreeAt (exporterIp, sourceId) (arrive like.dialect exporterIp sourceId parser arrival).1
        (arrive like.dialect' exporterIp sourceId parser' arrival').1 ∧
      SameFlows like.mayRaise like.SameFlow
        (dictsOf (arrive like.dialect exporterIp sourceId parser arrival).2)
        (dictsOf (arrive like.dialect' exporterIp sourceId parser' arrival').2) := by
  cases hsame with
  | sweep now => exact ⟨hagree.cleanupExpired now, .flows .nil⟩
  | template now id hcovered => exact (hagree.announce id hcovered).drainOrphans now id
  | dataSet now id payload hcontext => exact hagree.receiveDataSet now id payload hcontext

/-- The simulation, for a list of arrivals. -/
theorem parseAll_agree (hagree : like.AgreeAt (exporterIp, sourceId) parser parser')
    {arrivals : List (Arrival Context)} {arrivals' : List (Arrival Context')}
    (hsame : List.Forall₂ like.SameArrival arrivals arrivals') :
    like.AgreeAt (exporterIp, sourceId)
        (parseAll (arrive like.dialect exporterIp sourceId) parser arrivals).1
        (parseAll (arrive like.dialect' exporterIp sourceId) parser' arrivals').1 ∧
      SameFlows like.mayRaise like.SameFlow
        (dictsOf (parseAll (arrive like.dialect exporterIp sourceId) parser arrivals).2)
        (dictsOf (parseAll (arrive like.dialect' exporterIp sourceId) parser' arrivals').2) := by
  induction hsame generalizing parser parser' with
  | nil => exact ⟨hagree, .flows .nil⟩
  | @cons arrival arrival' arrivals arrivals' hfirst hrest ih =>
    obtain ⟨hnext, hflows⟩ := arrive_agree hagree hfirst
    rw [parseAll, parseAll]
    generalize arrive like.dialect exporterIp sourceId parser arrival = parsed at hnext hflows
    generalize arrive like.dialect' exporterIp sourceId parser' arrival' = parsed' at hnext hflows
    obtain ⟨next, _ | flows⟩ := parsed
    · obtain ⟨next', _ | flows'⟩ := parsed'
      · exact ⟨hnext, hflows⟩
      · cases hflows
    · obtain ⟨next', _ | flows'⟩ := parsed'
      · cases hflows
      · obtain ⟨hfinish, hmore⟩ := ih hnext
        exact ⟨hfinish, SameFlows.append hflows hmore⟩

end Likeness

/-! ### Other keys -/

variable {dialect : Dialect Context Time}

/-- What an arrival under a key does under another one: nothing. -/
structure SameAt (key : String × ℕ) (parser next : TemplateParser Context) : Prop where
  templates : ∀ id, next.templates.get? (key.1, key.2, id) =
    parser.templates.get? (key.1, key.2, id)
  waiting : next.waiting key = parser.waiting key

theorem SameAt.trans {key : String × ℕ} {parser next finish : TemplateParser Context}
    (hfirst : SameAt key parser next) (hsecond : SameAt key next finish) :
    SameAt key parser finish where
  templates := fun id ↦ (hsecond.templates id).trans (hfirst.templates id)
  waiting := hsecond.waiting.trans hfirst.waiting

theorem sameAt_setBuffer {key : String × ℕ} (hother : key ≠ (exporterIp, sourceId))
    (parser : TemplateParser Context) (buffer : List (Orphan Context)) :
    SameAt key parser
      { parser with
        orphanBuffer := parser.orphanBuffer.set (exporterIp, sourceId) buffer } where
  templates := fun _ ↦ rfl
  waiting := by rw [waiting_set, if_neg hother]

theorem sameAt_drainOrphans {key : String × ℕ} (hother : key ≠ (exporterIp, sourceId)) (now : ℚ)
    (parser : TemplateParser Context) (id : ℕ) :
    SameAt key parser (drainOrphans dialect now exporterIp sourceId parser id).1 := by
  rw [drainOrphans_eq]
  split_ifs
  · exact ⟨fun _ ↦ rfl, rfl⟩
  · exact sameAt_setBuffer hother parser _

/-- The frame rule. -/
theorem arrive_elsewhere (dialect : Dialect Context Time) {key : String × ℕ}
    (hother : key ≠ (exporterIp, sourceId))
    (parser : TemplateParser Context) {arrival : Arrival Context}
    (hsweep : ∀ now, arrival ≠ .sweep now) :
    SameAt key parser (arrive dialect exporterIp sourceId parser arrival).1 := by
  cases arrival with
  | sweep now => exact absurd rfl (hsweep now)
  | template now id fields =>
    have hannounce : SameAt key parser
        (parser.announce (exporterIp, sourceId, id) ⟨fields, now⟩) := by
      refine ⟨fun other ↦ ?_, rfl⟩
      rw [get?_announce, if_neg]
      exact fun hsame ↦ hother (Prod.ext (Prod.ext_iff.mp hsame).1
        (Prod.ext_iff.mp (Prod.ext_iff.mp hsame).2).1)
    exact hannounce.trans (sameAt_drainOrphans hother now _ id)
  | dataSet now id payload context =>
    rw [arrive, receiveDataSet]
    split
    · exact sameAt_setBuffer hother parser _
    · exact ⟨fun _ ↦ rfl, rfl⟩

/-- The frame rule for a list of arrivals without sweeps. -/
theorem parseAll_elsewhere {key : String × ℕ} (hother : key ≠ (exporterIp, sourceId))
    {arrivals : List (Arrival Context)}
    (hsweep : ∀ arrival ∈ arrivals, ∀ now, arrival ≠ .sweep now)
    (parser : TemplateParser Context) :
    SameAt key parser (parseAll (arrive dialect exporterIp sourceId) parser arrivals).1 := by
  induction arrivals generalizing parser with
  | nil => exact ⟨fun _ ↦ rfl, rfl⟩
  | cons arrival arrivals ih =>
    rw [List.forall_mem_cons] at hsweep
    have hfirst := arrive_elsewhere dialect hother parser hsweep.1
    rw [parseAll]
    generalize arrive dialect exporterIp sourceId parser arrival = parsed at hfirst
    obtain ⟨next, _ | flows⟩ := parsed
    · exact hfirst
    · exact hfirst.trans (ih hsweep.2 next)

/-- Parsers that agree at a key still do when nothing happens under it in either of them. -/
theorem Likeness.AgreeAt.of_sameAt {key : String × ℕ} {next : TemplateParser Context}
    {next' : TemplateParser Context'} (hagree : like.AgreeAt key parser parser')
    (hsame : SameAt key parser next) (hsame' : SameAt key parser' next') :
    like.AgreeAt key next next' where
  templates := fun id ↦ by rw [hsame.templates, hsame'.templates, hagree.templates]
  covered := fun id template hget ↦ hagree.covered id template (hsame.templates id ▸ hget)
  waiting := by
    rw [hsame.waiting, hsame'.waiting]
    exact hagree.waiting

end Lnmp.Flow
