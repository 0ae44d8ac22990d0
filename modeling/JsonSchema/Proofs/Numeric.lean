import JsonSchema.Proofs.Completeness
import JsonSchema.Proofs.Vocabulary.Recognition

/-!
Schema documents of numeric keywords. If the keywords of a document are about numbers alone and have the values that
these keywords have, the document becomes a schema whose constraints are what the keywords denote
(`Compiler.compile_numeric`): there is nothing in the document that the meta-schema refuses, and nothing that leads
elsewhere.
-/

namespace JsonSchema

open Compilation

/-! ### Documents -/

namespace Value

variable {v : Value} {key : String}

/-- The keywords about numbers. -/
def numericKeys : List String := ["minimum", "maximum", "exclusiveMinimum", "exclusiveMaximum", "multipleOf"]

/-- An object of keywords about numbers, with the values that the meta-schema asks for. -/
structure IsNumeric (v : Value) : Prop where
  object : v.kind = .object
  only : ∀ m ∈ v.members, m.1 ∈ numericKeys
  bound : ∀ m ∈ v.members, m.1 ∈ ["minimum", "maximum"] → ∃ x, m.2.asDouble? = some x
  flag : ∀ m ∈ v.members, m.1 ∈ ["exclusiveMinimum", "exclusiveMaximum"] → ∃ exclusive, m.2.asBool? = some exclusive
  quantity : ∀ m ∈ v.members, m.1 = "multipleOf" → m.2.IsPositive

theorem isObject_of_kind (h : v.kind = .object) : v.isObject = true := by
  unfold kind Node.kind at h
  unfold isObject
  cases hn : v.node <;> simp [hn] at h ⊢

theorem asDouble?_of_asInteger? {i : Int64} (h : v.asInteger? = some i) :
    v.asDouble? = some (Double.ofInt i.toInt) := by
  unfold asInteger? at h
  unfold asDouble?
  cases hn : v.node with
  | integer j =>
    rw [hn] at h
    cases h
    rfl
  | _ => simp [hn] at h

namespace IsNumeric

/-- There are no other members. -/
theorem get?_eq_none (h : v.IsNumeric) (hkey : key ∉ numericKeys) : v.get? key = none :=
  Option.eq_none_iff_forall_not_mem.mpr fun _ hw => hkey (h.only _ (mem_members_of_get? hw))

open Vocabulary.Accepts (accepts_iff)

/-- The meta-schema accepts the document: bounds are numbers, quantities positive numbers, and the others booleans. -/
theorem validate_metaSchema (h : v.IsNumeric) {maxDepth : Nat} (hd : 1 ≤ maxDepth) :
    metaSchema.validate maxDepth v = [] := by
  have hnode : (metaSchema.graph.node Vocabulary.schema).constraints =
      [.type [.object], .properties Vocabulary.keywords [] none] := rfl
  have hnumber : ∀ k ∈ Vocabulary.keywords, k.1 ∈ ["minimum", "maximum"] → k.2 = Vocabulary.number := by decide
  have hboolean : ∀ k ∈ Vocabulary.keywords, k.1 ∈ ["exclusiveMinimum", "exclusiveMaximum"] →
      k.2 = Vocabulary.boolean := by decide
  have hpositive : ∀ k ∈ Vocabulary.keywords, k.1 = "multipleOf" → k.2 = Vocabulary.positiveNumber := by decide
  suffices haccepts : Vocabulary.Accepts maxDepth 0 Vocabulary.schema v from validate_eq_nil_iff_verdict.2 haccepts
  refine accepts_iff.2 ⟨Nat.zero_le _, ?_⟩
  rw [hnode, List.forall_mem_cons, List.forall_mem_singleton, verdict_type_iff, verdict_properties_iff]
  refine ⟨TypeName.accepts_object_iff.2 (isObject_of_kind h.object), fun m hm id hid => ?_⟩
  rcases mem_coveringSchemas_iff.1 hid with hid | ⟨_, hid, -⟩ | ⟨hid, -⟩
  · rcases List.mem_append.mp (show m.1 ∈ ["minimum", "maximum"] ++ _ from h.only m hm) with hkey | hkey
    · obtain ⟨x, hx⟩ := h.bound m hm hkey
      obtain rfl := hnumber _ hid hkey
      exact Grammar.accepts_of_type rfl hd (TypeName.accepts_number_iff.2 ⟨x, hx⟩)
    · rcases List.mem_append.mp (show m.1 ∈ ["exclusiveMinimum", "exclusiveMaximum"] ++ _ from hkey) with hkey | hkey
      · obtain ⟨exclusive, hb⟩ := h.flag m hm hkey
        obtain rfl := hboolean _ hid hkey
        exact Grammar.accepts_of_type rfl hd (TypeName.accepts_boolean_iff.2 ⟨exclusive, hb⟩)
      · have hkey := List.mem_singleton.mp hkey
        obtain rfl := hpositive _ hid hkey
        exact Grammar.accepts_of_isPositive hd (h.quantity m hm hkey)
  · cases hid
  · cases hid

end IsNumeric

end Value

/-! ### Schemas -/

/-- The keywords denote constraints on numbers, and nothing is done to find this out. -/
theorem SchemaSource.node_of_isNumeric {s : SchemaSource} (h : s.value.IsNumeric) (x : Compilation) :
    s.node x = (.ok { constraints := Keyword.numeric s.value }, x) := by
  have hnone : ∀ key, key ∉ Value.numericKeys → s.value.get? key = none :=
    fun key => h.get?_eq_none
  have hpattern : s.pattern x = (.ok [], x) := by
    rw [SchemaSource.pattern, Keyword.string?, hnone "pattern" (by decide)]
    rfl
  have hitems : s.items x = (.ok [], x) := by
    rw [SchemaSource.items, hnone "items" (by decide)]
    rfl
  have hproperties : s.properties x = (.ok [], x) := by
    rw [SchemaSource.properties, SchemaSource.additional, hnone "additionalProperties" (by decide),
      hnone "properties" (by decide), hnone "patternProperties" (by decide)]
    rfl
  have hcombinations : s.combinations x = (.ok [], x) := by
    simp only [SchemaSource.combinations, SchemaSource.sequence, SchemaSource.single, hnone "allOf" (by decide),
      hnone "anyOf" (by decide), hnone "oneOf" (by decide), hnone "not" (by decide)]
    rfl
  -- of the keywords that are read by themselves only those about numbers are there
  have hnumeric : Keyword.type s.value ++ Keyword.numeric s.value ++ Keyword.stringLengths s.value ++ [] ++
      Keyword.stringForms s.value ++ Keyword.arraySizes s.value ++ [] ++ Keyword.objectSizes s.value ++ [] ++
      Keyword.required s.value ++ Keyword.enum s.value ++ [] = Keyword.numeric s.value := by
    simp only [Keyword.type, Keyword.stringLengths, Keyword.stringForms, Keyword.arraySizes, Keyword.objectSizes,
      Keyword.required, Keyword.enum, Keyword.count?, Keyword.dateTime?, Keyword.string?, Keyword.flag,
      hnone "type" (by decide), hnone "minLength" (by decide), hnone "maxLength" (by decide),
      hnone "formatMinimum" (by decide), hnone "formatMaximum" (by decide), hnone "format" (by decide),
      hnone "minItems" (by decide), hnone "maxItems" (by decide), hnone "uniqueItems" (by decide),
      hnone "minProperties" (by decide), hnone "maxProperties" (by decide), hnone "required" (by decide),
      hnone "enum" (by decide)]
    simp
  have hconstraints : s.constraints x = (.ok (Keyword.numeric s.value), x) := by
    rw [SchemaSource.constraints, run_bind_of_ok hpattern, run_bind_of_ok hitems, run_bind_of_ok hproperties,
      run_bind_of_ok hcombinations, hnumeric]
    rfl
  rw [SchemaSource.node, run_bind_of_ok hconstraints, hnone "default" (by decide), Keyword.string?, Keyword.string?,
    hnone "title" (by decide), hnone "description" (by decide)]
  rfl

/-- A document of numeric keywords becomes a schema whose constraints are those of the keywords. -/
theorem Compiler.compile_numeric {c : Compiler} {document : Document} (h : document.root.IsNumeric)
    (hdepth : 1 ≤ c.limits.maxDepth) (store : Store) :
    ∃ s after, c.compile document store = (.ok s, after) ∧
      (s.graph.node s.id).constraints = Keyword.numeric document.root := by
  have hkind : document.root.kind ≠ .reference := by
    rw [h.object]
    decide
  obtain ⟨checked, hx⟩ := c.check_run document.root document .root (start (store.opened document))
  have hcheck : c.check document.root document .root (start (store.opened document)) =
      (.ok ⟨⟩, { start (store.opened document) with checked }) :=
    Prod.ext (check_of_valid (h.validate_metaSchema hdepth) _ _ _) hx
  have hsource : ∀ x, (c.source c.limits.maxDepth document.root document .root).node x =
      (.ok { constraints := Keyword.numeric document.root }, x) := SchemaSource.node_of_isNumeric h
  have hnode : c.node (c.limits.maxDepth + 1) document.root document .root
      { start (store.opened document) with checked } = _ := node_plain_run rfl hkind
  rw [hsource] at hnode
  refine ⟨_, _, compile_run ((run_bind_of_ok hcheck).trans hnode), ?_⟩
  rfl

end JsonSchema
