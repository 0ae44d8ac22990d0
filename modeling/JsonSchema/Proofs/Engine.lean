import JsonSchema.Proofs.Environment
import JsonSchema.Proofs.Issues
import JsonSchema.Proofs.Vocabulary

/-!
Validation with another way to read regular expressions (`Regex.Engine`). The validator asks the engine one thing alone:
whether a string of the format `regex` is a regular expression. So two engines give the same issues if they accept the
same of these strings, whatever they read in them (`SchemaGraph.checkBy_congr`).

In a schema document the meta-schema asks this of the members called `pattern` and of no other string
(`Vocabulary.mem_members_of_visits`). The names of members under `patternProperties` are not checked at all.
-/

namespace JsonSchema

/-- A way to read regular expressions. -/
abbrev Regex.Engine := String → Option Regex

namespace Regex.Engine

/-- The engines accept the same strings of those that schema documents hold as patterns. -/
def Concur (f g : Engine) (d : Document) : Prop :=
  ∀ w, d.Owns w → ∀ text, Keyword.string? w "pattern" = some text → (f text).isSome = (g text).isSome

end Regex.Engine

/-! ### Validation with an engine -/

/-- The issues of a constraint at a place, where an engine tells regular expressions from other strings. -/
def Constraint.issuesBy (engine : Regex.Engine) (check : SchemaId → Value → Pointer → Report) (c : Constraint) (v : Value)
    (p : Pointer) : Report :=
  match c with
  | .format .regex => if v.asString?.all fun text => (engine text).isSome then [] else [.broken p c]
  | _ => c.issues check v p

/-- The issues of a value at a place, where an engine tells regular expressions from other strings. -/
def SchemaGraph.checkBy (engine : Regex.Engine) (g : SchemaGraph) (limit : Nat) :
    Nat → SchemaId → Value → Pointer → Report
  | 0, _, _, p => [.tooDeep p limit]
  | remaining + 1, id, v, p =>
    (g.node id).constraints.flatMap fun c => c.issuesBy engine (g.checkBy engine limit remaining) v p

/-- The issues of a value, where an engine tells regular expressions from other strings. -/
def Schema.validateBy (engine : Regex.Engine) (s : Schema) (maxDepth : Nat) (v : Value) : Report :=
  s.graph.checkBy engine maxDepth (maxDepth + 1) s.id v .root

theorem Constraint.issuesBy_ofText? (check : SchemaId → Value → Pointer → Report) (c : Constraint) (v : Value)
    (p : Pointer) : c.issuesBy Regex.ofText? check v p = c.issues check v p := by
  cases c with
  | format f => cases f <;> rfl
  | _ => rfl

theorem SchemaGraph.checkBy_ofText? (g : SchemaGraph) (limit remaining : Nat) (id : SchemaId) (v : Value) (p : Pointer) :
    g.checkBy Regex.ofText? limit remaining id v p = g.check limit remaining id v p := by
  induction remaining generalizing id v p with
  | zero => rfl
  | succ remaining ih =>
    have hcheck : g.checkBy Regex.ofText? limit remaining = g.check limit remaining := by
      funext id v p
      exact ih id v p
    rw [checkBy, SchemaGraph.check, hcheck]
    exact List.flatMap_congr fun c _ => c.issuesBy_ofText? _ v p

/-- Validation as it is done. -/
theorem Schema.validateBy_ofText? (s : Schema) (maxDepth : Nat) (v : Value) :
    s.validateBy Regex.ofText? maxDepth v = s.validate maxDepth v :=
  s.graph.checkBy_ofText? _ _ _ _ _

/-! ### What the issues depend on -/

section

variable {outcome outcome' : SchemaId → Outcome} {ids : List SchemaId}

theorem firstValid_congr (h : ∀ id ∈ ids, outcome id = outcome' id) : firstValid outcome ids = firstValid outcome' ids := by
  induction ids with
  | nil => rfl
  | cons id ids ih =>
    rw [firstValid, firstValid, h id List.mem_cons_self, ih fun id hid => h id (List.mem_cons_of_mem _ hid)]

theorem singleValid_congr (found : Bool) (h : ∀ id ∈ ids, outcome id = outcome' id) :
    singleValid outcome found ids = singleValid outcome' found ids := by
  induction ids generalizing found with
  | nil => rfl
  | cons id ids ih =>
    have hrest : ∀ found, singleValid outcome found ids = singleValid outcome' found ids := fun found =>
      ih found fun id hid => h id (List.mem_cons_of_mem _ hid)
    rw [singleValid, singleValid, h id List.mem_cons_self, hrest, hrest]

end

section

variable {check check' : SchemaId → Value → Pointer → Report} {c : Constraint} {v : Value} {p : Pointer}
  {f g : Regex.Engine}

/-- The issues of a constraint depend on those of the visits that it makes. -/
theorem Constraint.issues_congr_visits
    (h : ∀ y ∈ c.visits v p, check y.schema y.value y.pointer = check' y.schema y.value y.pointer) :
    c.issues check v p = c.issues check' v p := by
  have hbranch : ∀ {ids : List SchemaId}, c.visits v p = ids.map (⟨·, v, p⟩) → ∀ id ∈ ids,
      check id v p = check' id v p := fun hvisits id hid => h _ (hvisits ▸ List.mem_map_of_mem hid)
  cases c with
  | items schemas additional =>
    refine List.flatMap_congr fun ⟨element, index⟩ hx => ?_
    dsimp only
    cases hs : schemas.schemaAt? additional index with
    | none => rfl
    | some id => exact h ⟨id, element, p.childIndex index⟩ (List.mem_flatMap.mpr ⟨_, hx, by simp [hs]⟩)
  | properties named patterns additional =>
    refine List.flatMap_congr fun x hx => List.flatMap_congr fun id hid => ?_
    rw [memberSchemas_eq] at hid
    exact h _ (List.mem_flatMap.mpr ⟨x, hx, List.mem_map_of_mem hid⟩)
  | allOf ids =>
    refine List.flatMap_congr fun id hid => ?_
    dsimp only
    rw [hbranch rfl id hid]
  | anyOf ids =>
    have hfirst : firstValid (fun id => .ofReport (check id v p)) ids =
        firstValid (fun id => .ofReport (check' id v p)) ids :=
      firstValid_congr fun id hid => congrArg _ (hbranch rfl id hid)
    simp only [issues, hfirst]
  | oneOf ids =>
    have hsingle : singleValid (fun id => .ofReport (check id v p)) false ids =
        singleValid (fun id => .ofReport (check' id v p)) false ids :=
      singleValid_congr false fun id hid => congrArg _ (hbranch rfl id hid)
    simp only [issues, hsingle]
  | not id =>
    have hid : check id v p = check' id v p := h _ (List.mem_singleton_self _)
    simp only [issues, hid]
  | _ => rfl

/-- Only for the format of regular expressions an engine is asked. -/
theorem Constraint.issuesBy_congr
    (hvisits : ∀ y ∈ c.visits v p, check y.schema y.value y.pointer = check' y.schema y.value y.pointer)
    (hformat : c = .format .regex → ∀ text, v.asString? = some text → (f text).isSome = (g text).isSome) :
    c.issuesBy f check v p = c.issuesBy g check' v p := by
  have hissues : c.issues check v p = c.issues check' v p := issues_congr_visits hvisits
  cases c with
  | format kind =>
    cases kind with
    | regex =>
      unfold issuesBy
      dsimp only
      cases ht : v.asString? with
      | none => rfl
      | some text => rw [Option.all_some, Option.all_some, hformat rfl text ht]
    | _ => exact hissues
  | _ => exact hissues

end

/-- Two engines give the same issues if they accept the same strings wherever the format is asked for. What holds of
visits says where that is. -/
theorem SchemaGraph.checkBy_congr {s : SchemaGraph} {f g : Regex.Engine} {P : Visit → Prop}
    (hstep : ∀ x c y, P x → c ∈ (s.node x.schema).constraints → y ∈ c.visits x.value x.pointer → P y)
    (hask : ∀ x, P x → .format .regex ∈ (s.node x.schema).constraints → ∀ text, x.value.asString? = some text →
      (f text).isSome = (g text).isSome) (limit remaining : Nat) {x : Visit} (hx : P x) :
    s.checkBy f limit remaining x.schema x.value x.pointer = s.checkBy g limit remaining x.schema x.value x.pointer := by
  induction remaining generalizing x with
  | zero => rfl
  | succ remaining ih =>
    rw [checkBy, checkBy]
    refine List.flatMap_congr fun c hc => Constraint.issuesBy_congr (fun y hy => ih (hstep x c y hx hc hy)) ?_
    rintro rfl
    exact hask x hx hc

/-! ### What the meta-schema asks -/

/-- A constraint visits the schemas that it refers to. -/
theorem Constraint.schema_mem_nested {c : Constraint} {v : Value} {p : Pointer} {y : Visit} (hy : y ∈ c.visits v p) :
    y.schema ∈ c.nested := by
  cases c with
  | items schemas additional =>
    obtain ⟨x, -, hy⟩ := List.mem_flatMap.mp hy
    obtain ⟨id, hid, rfl⟩ := List.mem_map.mp hy
    rw [Option.mem_toList] at hid
    cases schemas with
    | single schema =>
      cases hid
      exact List.mem_cons_self
    | tuple schemas =>
      rcases Option.or_eq_some_iff.mp (Option.orElse_eq_or.symm.trans hid) with hid | ⟨-, hid⟩
      · exact List.mem_append_left _ (List.mem_of_getElem? hid)
      · exact List.mem_append_right _ (Option.mem_toList.mpr hid)
  | properties named patterns additional =>
    obtain ⟨x, -, hy⟩ := List.mem_flatMap.mp hy
    obtain ⟨id, hid, rfl⟩ := List.mem_map.mp hy
    rcases mem_coveringSchemas_iff.1 hid with hid | ⟨regex, hid, -⟩ | ⟨hid, -⟩
    · exact List.mem_append_left _ (List.mem_append_left _ (List.mem_map_of_mem (f := (·.2)) hid))
    · exact List.mem_append_left _ (List.mem_append_right _ (List.mem_map_of_mem (f := (·.2)) hid))
    · exact List.mem_append_right _ (Option.mem_toList.mpr hid)
  | allOf ids | anyOf ids | oneOf ids =>
    obtain ⟨id, hid, rfl⟩ := List.mem_map.mp hy
    exact hid
  | not id =>
    cases List.mem_singleton.mp hy
    exact List.mem_singleton_self _
  | _ => cases hy

namespace Vocabulary

/-- A constraint at a node of the meta-schema asks for regular expressions only at the node that is there for them, and
leads to that node only by the name `pattern`. -/
def confined (id : SchemaId) : Constraint → Bool
  | .format .regex => id == regex
  | .properties named patterns additional =>
    named.all (fun entry => entry.2 != regex || entry.1 == "pattern") && patterns.isEmpty && additional != some regex
  | c => !c.nested.contains regex

variable {id : SchemaId} {c : Constraint} {v : Value} {p : Pointer} {y : Visit}

theorem confined_of_mem (hc : c ∈ (metaSchema.graph.node id).constraints) : confined id c = true := by
  have hall : ∀ index < nodes.size, ∀ c ∈ (metaSchema.graph.node ⟨index⟩).constraints, confined ⟨index⟩ c = true := by
    decide
  by_cases hid : id.index < nodes.size
  · exact hall id.index hid c hc
  · have hnode : metaSchema.graph.node id = {} := by
      rw [SchemaGraph.node, show metaSchema.graph.nodes[id.index]? = none from
        Array.getElem?_eq_none (Nat.le_of_not_lt hid)]
      rfl
    rw [hnode] at hc
    cases hc

theorem eq_regex_of_mem (hc : .format .regex ∈ (metaSchema.graph.node id).constraints) : id = regex :=
  beq_iff_eq.1 (confined_of_mem hc)

/-- What the meta-schema wants to be a regular expression is the member `pattern`. -/
theorem mem_members_of_visits (hc : c ∈ (metaSchema.graph.node id).constraints) (hy : y ∈ c.visits v p)
    (hregex : y.schema = regex) : ("pattern", y.value) ∈ v.members := by
  have hconfined := confined_of_mem hc
  have hnested := Constraint.schema_mem_nested hy
  rw [hregex] at hnested
  cases c with
  | properties named patterns additional =>
    obtain ⟨⟨key, member⟩, hx, hy⟩ := List.mem_flatMap.mp hy
    obtain ⟨id, hid, rfl⟩ := List.mem_map.mp hy
    cases hregex
    simp only [confined, Bool.and_eq_true, List.all_eq_true, Bool.or_eq_true, bne_iff_ne, beq_iff_eq,
      List.isEmpty_iff] at hconfined
    obtain ⟨⟨hnamed, rfl⟩, hadditional⟩ := hconfined
    rcases mem_coveringSchemas_iff.1 hid with hid | ⟨_, hid, -⟩ | ⟨hid, -⟩
    · cases (hnamed _ hid).resolve_left fun hne => hne rfl
      exact hx
    · cases hid
    · exact absurd hid hadditional
  | format f => cases hy
  | _ => simp [confined, hnested] at hconfined

end Vocabulary

/-- **The meta-schema finds the same with two engines** that accept the same of the strings that the schema document holds
as patterns. -/
theorem Regex.Engine.Concur.validateBy_metaSchema {f g : Regex.Engine} {d : Document} {v : Value} (h : f.Concur g d)
    (hw : d.root.graph.WellFormed) (hv : d.Owns v) (maxDepth : Nat) :
    metaSchema.validateBy f maxDepth v = metaSchema.validateBy g maxDepth v := by
  -- the visits of the node for regular expressions are those of members called `pattern`
  refine SchemaGraph.checkBy_congr (P := fun x => d.Owns x.value ∧ (x.schema = Vocabulary.regex →
    ∃ w, d.Owns w ∧ w.get? "pattern" = some x.value)) ?_ ?_ _ _ (x := ⟨metaSchema.id, v, .root⟩) ⟨hv, fun hid => ?_⟩
  · rintro x c y ⟨hx, -⟩ hc hy
    refine ⟨?_, fun hid => ?_⟩
    · rcases mem_visits hy with ⟨heq, -⟩ | ⟨index, hmem, -⟩ | ⟨key, hmem, -⟩
      · rw [heq]
        exact hx
      · exact hx.element (List.fst_mem_of_mem_zipIdx hmem)
      · exact hx.member hmem
    · refine ⟨x.value, hx, Value.get?_of_mem_members ?_ (Vocabulary.mem_members_of_visits hc hy hid)⟩
      rw [hx.graph]
      exact hw
  · rintro x ⟨-, hx⟩ hc text ht
    obtain ⟨w, hw, hget⟩ := hx (Vocabulary.eq_regex_of_mem hc)
    exact h w hw text (by rw [Keyword.string?, hget, Option.bind_some, ht])
  · have hne : metaSchema.id ≠ Vocabulary.regex := by decide
    exact absurd hid hne

end JsonSchema
