import JsonSchema.Proofs.Vocabulary.Grammar

/-!
The meta-schema recognises the schema documents (`validate_metaSchema_iff_fits`). Whatever it accepts at some depth
fits, by induction on the levels that are left (`Grammar.fits_of_accepts`). What fits is accepted as soon as the levels
left are enough for its parts, by induction on the definition (`Grammar.exists_within_of_fits`): a value has finitely
many parts, so there is a common number for them.
-/

namespace JsonSchema

/-! ### Numbers and strings -/

namespace Value

variable {v w : Value}

theorem isPositive_iff : v.IsPositive ↔ ∃ x, v.asDouble? = some x ∧ (Double.zero false).lt x = true := by
  unfold IsPositive asDouble?
  cases v.node with
  | integer i =>
    simp only [Option.some.injEq, exists_eq_left']
    exact (Double.zero_lt_ofInt_iff (Double.natAbs_toInt_lt i)).symm
  | _ => simp

theorem isCount_iff : v.IsCount ↔
    TypeName.integer.accepts v = true ∧ ∃ x, v.asDouble? = some x ∧ (Double.zero false).le x = true := by
  unfold IsCount TypeName.accepts asDouble?
  cases v.node with
  | integer i =>
    simp only [Option.some.injEq, exists_eq_left', true_and]
    exact (Double.zero_le_ofInt_iff (Double.natAbs_toInt_lt i)).symm
  | _ => simp

/-- Integers can be read as floating-point numbers. -/
theorem exists_asDouble?_of_integer (h : TypeName.integer.accepts v = true) : ∃ x, v.asDouble? = some x := by
  unfold TypeName.accepts at h
  unfold asDouble?
  cases hn : v.node <;> simp [hn] at h ⊢

theorem IsTypeName.exists_text (h : v.IsTypeName) : ∃ text, v.asString? = some text := by
  obtain ⟨t, ht⟩ := h
  exact ⟨t.name, ht⟩

theorem IsText.exists_text {P : String → Prop} (h : v.IsText P) : ∃ text, v.asString? = some text := by
  obtain ⟨text, ht, -⟩ := h
  exact ⟨text, ht⟩

/-- Strings are equal if they are the same. -/
theorem eq_iff_of_asString? (hv : ∃ text, v.asString? = some text) (hw : ∃ text, w.asString? = some text) :
    v.eq w = true ↔ v.asString? = w.asString? := by
  obtain ⟨text, hv⟩ := hv
  obtain ⟨other, hw⟩ := hw
  rw [eq_of_asString? hv, asString?_eq_some_iff.1 hw, hv, hw, Node.scalarEq, beq_iff_eq, Option.some.injEq]

theorem distinct_iff_nodup {l : List Value} (h : ∀ v ∈ l, ∃ text, v.asString? = some text) :
    distinct l = true ↔ (l.map asString?).Nodup := by
  induction l with
  | nil => simp [distinct]
  | cons v l ih =>
    obtain ⟨hv, hl⟩ := List.forall_mem_cons.mp h
    have hhead : (l.all fun u => !v.eq u) = true ↔ v.asString? ∉ l.map asString? := by
      rw [List.all_eq_true, List.mem_map, not_exists]
      refine forall_congr' fun u => ?_
      rw [not_and]
      refine forall_congr' fun hu => ?_
      rw [Bool.not_eq_true', ← Bool.not_eq_true, eq_iff_of_asString? hv (hl u hu)]
      exact not_congr eq_comm
    rw [distinct, Bool.and_eq_true, hhead, ih hl, List.map_cons, List.nodup_cons]

end Value

/-! ### What the meta-schema accepts fits -/

namespace Vocabulary.Accepts

variable {maxDepth depth : Nat} {id : SchemaId} {v : Value}

theorem isPositive (h : Accepts maxDepth depth Vocabulary.positiveNumber v) : v.IsPositive := by
  obtain ⟨x, hx⟩ := h.positiveNumber
  exact Value.isPositive_iff.2 ⟨x, hx, (verdict_minimum_iff hx).1 (h.constraint (.tail _ (.head _)))⟩

theorem isCount (h : Accepts maxDepth depth Vocabulary.count v) : v.IsCount := by
  have hinteger := h.type (.head _)
  obtain ⟨x, hx⟩ := Value.exists_asDouble?_of_integer hinteger
  exact Value.isCount_iff.2 ⟨hinteger, x, hx, (verdict_minimum_iff hx).1 (h.constraint (.tail _ (.head _)))⟩

theorem uriReference (h : Accepts maxDepth depth Vocabulary.uriReference v) :
    v.IsText fun text => (UriReference.parse text).isOk = true :=
  h.format (.head _) (.tail _ (.head _))

/-- A name of a type, or a list of distinct ones. -/
theorem types (h : Accepts maxDepth depth Vocabulary.typeKeyword v) :
    v.IsTypeName ∨ v.elements ≠ [] ∧ v.IsTexts Value.IsTypeName := by
  obtain ⟨other, ho, h⟩ := h.branch (.head _)
  rcases List.mem_pair.mp ho with rfl | rfl
  · exact .inl h.typeName
  · have ha := TypeName.accepts_array_iff.1 (h.type (.head _))
    have hnames : ∀ w ∈ v.elements, w.IsTypeName := fun w hw =>
      (h.element (.tail _ (.tail _ (.tail _ (.head _)))) hw).typeName
    have hdistinct := (verdict_uniqueItems_iff ha).1 (h.constraint (.tail _ (.tail _ (.head _))))
    refine .inr ⟨h.elements_ne_nil (.tail _ (.head _)) ha, ha, hnames, ?_⟩
    exact (Value.distinct_iff_nodup fun w hw => (hnames w hw).exists_text).1 hdistinct

theorem names (h : Accepts maxDepth depth Vocabulary.stringSet v) : v.IsTexts (Value.IsText fun _ => True) := by
  obtain ⟨ha, hall⟩ := h.stringSet
  have hdistinct := (verdict_uniqueItems_iff ha).1 (h.constraint (.tail _ (.head _)))
  refine ⟨ha, fun w hw => ?_, (Value.distinct_iff_nodup hall).1 hdistinct⟩
  obtain ⟨text, ht⟩ := hall w hw
  exact ⟨text, ht, trivial⟩

end Vocabulary.Accepts

namespace Grammar

open Vocabulary (Accepts)

variable {maxDepth depth : Nat} {shape : Shape} {v : Value}

theorem Plain.meets_of_accepts {p : Plain} (h : Accepts maxDepth depth p.node v) : p.Meets v := by
  cases p with
  | string =>
    obtain ⟨text, ht⟩ := h.string
    exact ⟨text, ht, trivial⟩
  | boolean => exact h.boolean
  | number => exact h.number
  | positive => exact h.isPositive
  | count => exact h.isCount
  | regex =>
    obtain ⟨text, regex, ht, hregex⟩ := h.regex
    exact ⟨text, ht, Option.isSome_of_eq_some hregex⟩
  | dateTime =>
    obtain ⟨text, t, ht, hparse⟩ := h.dateTime
    exact ⟨text, ht, Option.isSome_of_eq_some hparse⟩
  | uriReference => exact h.uriReference
  | types => exact h.types
  | array => exact h.array
  | names => exact h.names

/-- What the meta-schema accepts at a depth fits, by induction on the levels that are left. -/
theorem fits_of_accepts (h : Accepts maxDepth depth shape.node v) : Fits shape v := by
  induction hk : maxDepth + 1 - depth generalizing depth shape v with
  | zero =>
    have hle := h.le
    omega
  | succ k ih =>
    have hbelow : ∀ {shape w}, Accepts maxDepth (depth + 1) (Shape.node shape) w → Fits shape w := fun h =>
      ih h (by omega)
    cases shape with
    | plain p => exact .plain (Plain.meets_of_accepts h)
    | schema =>
      refine .schema h.isObject fun shape key w hkey hw => hbelow ?_
      exact h.member (.tail _ (.head _)) hw (mem_coveringSchemas_iff.2 (.inl (Shape.mem_keywords hkey)))
    | schemas =>
      obtain ⟨ha, hne, hall⟩ := h.schemaArray
      exact .schemas ha hne fun w hw => hbelow (hall w hw)
    | schemaOrSchemas =>
      rcases h.itemsKeyword with h | h
      · exact .oneSchema (hbelow h)
      · exact .manySchemas (hbelow h)
    | schemaOrBoolean =>
      rcases h.booleanOrSchema with ⟨b, hb⟩ | h
      · exact .boolean hb
      · exact .noBoolean (hbelow h)
    | schemaMap =>
      obtain ⟨hobject, hall⟩ := h.schemaMap
      exact .schemaMap hobject fun key w hw => hbelow (hall (key, w) hw)

/-! ### What fits is accepted -/

open Vocabulary.Accepts (accepts_iff)

/-- A string is accepted by a node for strings of a format. -/
theorem accepts_of_format {id : SchemaId} {f : Format}
    (hnode : (metaSchema.graph.node id).constraints = [.type [.string], .format f]) (hd : depth ≤ maxDepth)
    (h : v.IsText fun text => f.accepts text = true) : Accepts maxDepth depth id v := by
  obtain ⟨text, ht, hf⟩ := h
  rw [accepts_iff, hnode, List.forall_mem_cons, List.forall_mem_singleton, verdict_type_iff, verdict_format_iff ht]
  exact ⟨hd, TypeName.accepts_string_iff.2 ⟨text, ht⟩, hf⟩

theorem accepts_of_type {id : SchemaId} {kind : TypeName}
    (hnode : (metaSchema.graph.node id).constraints = [.type [kind]]) (hd : depth ≤ maxDepth)
    (h : kind.accepts v = true) : Accepts maxDepth depth id v := by
  rw [accepts_iff, hnode, List.forall_mem_singleton, verdict_type_iff]
  exact ⟨hd, h⟩

theorem accepts_of_isPositive (hd : depth ≤ maxDepth) (h : v.IsPositive) :
    Accepts maxDepth depth Vocabulary.positiveNumber v := by
  obtain ⟨x, hx, hlt⟩ := Value.isPositive_iff.1 h
  have hnode : (metaSchema.graph.node Vocabulary.positiveNumber).constraints =
      [.type [.number], .minimum (.zero false) true] := rfl
  rw [accepts_iff, hnode, List.forall_mem_cons, List.forall_mem_singleton, verdict_type_iff, verdict_minimum_iff hx]
  exact ⟨hd, TypeName.accepts_number_iff.2 ⟨x, hx⟩, hlt⟩

theorem accepts_of_isCount (hd : depth ≤ maxDepth) (h : v.IsCount) : Accepts maxDepth depth Vocabulary.count v := by
  obtain ⟨hinteger, x, hx, hle⟩ := Value.isCount_iff.1 h
  have hnode : (metaSchema.graph.node Vocabulary.count).constraints =
      [.type [.integer], .minimum (.zero false) false] := rfl
  rw [accepts_iff, hnode, List.forall_mem_cons, List.forall_mem_singleton, verdict_type_iff, verdict_minimum_iff hx]
  exact ⟨hd, hinteger, hle⟩

theorem accepts_of_isTypeName (hd : depth ≤ maxDepth) (h : v.IsTypeName) :
    Accepts maxDepth depth Vocabulary.typeName v := by
  obtain ⟨t, ht⟩ := h
  have hnode : (metaSchema.graph.node Vocabulary.typeName).constraints =
      [.type [.string], .enum Vocabulary.typeNameValues] := rfl
  have hallowed : ∀ t : TypeName, ∃ allowed ∈ Vocabulary.typeNameValues, allowed.asString? = some t.name := by
    intro t
    cases t <;> decide
  obtain ⟨allowed, hmem, hallowed⟩ := hallowed t
  rw [accepts_iff, hnode, List.forall_mem_cons, List.forall_mem_singleton, verdict_type_iff]
  refine ⟨hd, TypeName.accepts_string_iff.2 ⟨_, ht⟩, Verdict.ofBool_eq_valid_iff.2 (List.any_eq_true.mpr ?_)⟩
  exact ⟨allowed, hmem, (Value.eq_iff_of_asString? ⟨_, hallowed⟩ ⟨_, ht⟩).2 (hallowed.trans ht.symm)⟩

/-- A list of names has to be accepted one level below the choice, and its elements below that. -/
theorem accepts_of_types (hd : depth + 2 ≤ maxDepth)
    (h : v.IsTypeName ∨ v.elements ≠ [] ∧ v.IsTexts Value.IsTypeName) :
    Accepts maxDepth depth Vocabulary.typeKeyword v := by
  have hnode : (metaSchema.graph.node Vocabulary.typeKeyword).constraints =
      [.anyOf [Vocabulary.typeName, Vocabulary.typeNames]] := rfl
  have hnames : (metaSchema.graph.node Vocabulary.typeNames).constraints =
      [.type [.array], .minItems 1, .uniqueItems, Vocabulary.listOf Vocabulary.typeName] := rfl
  rw [accepts_iff, hnode, List.forall_mem_singleton, verdict_anyOf_iff]
  refine ⟨by omega, ?_⟩
  rcases h with h | ⟨hne, ha, hall, hnodup⟩
  · exact ⟨Vocabulary.typeName, .head _, accepts_of_isTypeName (by omega) h⟩
  · have hdistinct := (Value.distinct_iff_nodup fun w hw => (hall w hw).exists_text).2 hnodup
    refine ⟨Vocabulary.typeNames, .tail _ (.head _), accepts_iff.2 ⟨by omega, ?_⟩⟩
    rw [hnames, List.forall_mem_cons, List.forall_mem_cons, List.forall_mem_cons, List.forall_mem_singleton,
      verdict_type_iff, verdict_minItems_one_iff ha, verdict_uniqueItems_iff ha, verdict_listOf_iff]
    exact ⟨TypeName.accepts_array_iff.2 ha, hne, hdistinct, fun w hw => accepts_of_isTypeName (by omega) (hall w hw)⟩

theorem accepts_of_names (hd : depth + 1 ≤ maxDepth) (h : v.IsTexts (Value.IsText fun _ => True)) :
    Accepts maxDepth depth Vocabulary.stringSet v := by
  obtain ⟨ha, hall, hnodup⟩ := h
  have hnode : (metaSchema.graph.node Vocabulary.stringSet).constraints =
      [.type [.array], .uniqueItems, Vocabulary.listOf Vocabulary.string] := rfl
  have hdistinct := (Value.distinct_iff_nodup fun w hw => (hall w hw).exists_text).2 hnodup
  rw [accepts_iff, hnode, List.forall_mem_cons, List.forall_mem_cons, List.forall_mem_singleton,
    verdict_type_iff, verdict_uniqueItems_iff ha, verdict_listOf_iff]
  refine ⟨by omega, TypeName.accepts_array_iff.2 ha, hdistinct, fun w hw => ?_⟩
  exact accepts_of_type rfl (by omega) (TypeName.accepts_string_iff.2 (hall w hw).exists_text)

/-- Two levels are enough for what holds no schemas. -/
theorem Plain.accepts_of_meets {p : Plain} (hd : depth + 2 ≤ maxDepth) (h : p.Meets v) :
    Accepts maxDepth depth p.node v := by
  have hle : depth ≤ maxDepth := by omega
  cases p with
  | string => exact accepts_of_type rfl hle (TypeName.accepts_string_iff.2 (Value.IsText.exists_text h))
  | boolean => exact accepts_of_type rfl hle (TypeName.accepts_boolean_iff.2 h)
  | number => exact accepts_of_type rfl hle (TypeName.accepts_number_iff.2 h)
  | positive => exact accepts_of_isPositive hle h
  | count => exact accepts_of_isCount hle h
  | regex => exact accepts_of_format rfl hle h
  | dateTime => exact accepts_of_format rfl hle h
  | uriReference => exact accepts_of_format rfl hle h
  | types => exact accepts_of_types hd h
  | array => exact accepts_of_type rfl hle (TypeName.accepts_array_iff.2 h)
  | names => exact accepts_of_names (by omega) h

/-- The node accepts the value wherever so many levels are left. -/
def Within (id : SchemaId) (v : Value) (levels : Nat) : Prop :=
  ∀ maxDepth depth, depth + levels ≤ maxDepth → Accepts maxDepth depth id v

theorem Within.mono {id : SchemaId} {n m : Nat} (h : Within id v n) (hnm : n ≤ m) : Within id v m :=
  fun maxDepth depth hd => h maxDepth depth (by omega)

/-- A list has a common bound if each of its elements has one. -/
theorem exists_common_bound {α : Type} {P : α → Nat → Prop} (hmono : ∀ {a n m}, P a n → n ≤ m → P a m) {l : List α}
    (h : ∀ a ∈ l, ∃ n, P a n) : ∃ n, ∀ a ∈ l, P a n := by
  induction l with
  | nil => exact ⟨0, fun a ha => by cases ha⟩
  | cons a l ih =>
    obtain ⟨hhead, htail⟩ := List.forall_mem_cons.mp h
    obtain ⟨n, hn⟩ := hhead
    obtain ⟨m, hm⟩ := ih htail
    exact ⟨max n m, List.forall_mem_cons.mpr ⟨hmono hn (Nat.le_max_left ..),
      fun b hb => hmono (hm b hb) (Nat.le_max_right ..)⟩⟩

/-- An object is accepted one level above its members. -/
theorem exists_within_of_members {id : SchemaId} {named : List (String × SchemaId)} {additional : Option SchemaId}
    (hnode : (metaSchema.graph.node id).constraints = [.type [.object], .properties named [] additional])
    (hobject : v.isObject = true)
    (h : ∀ m ∈ v.members, ∀ id ∈ coveringSchemas named [] additional m.1, ∃ n, Within id m.2 n) :
    ∃ n, Within id v n := by
  have hmember : ∀ m ∈ v.members, ∃ n, ∀ id ∈ coveringSchemas named [] additional m.1, Within id m.2 n :=
    fun m hm => exists_common_bound (P := (Within · m.2)) Within.mono (h m hm)
  obtain ⟨n, hn⟩ := exists_common_bound (fun h hnm id hid => (h id hid).mono hnm) hmember
  refine ⟨n + 1, fun maxDepth depth hd => accepts_iff.2 ⟨by omega, ?_⟩⟩
  rw [hnode, List.forall_mem_cons, List.forall_mem_singleton, verdict_type_iff, verdict_properties_iff]
  exact ⟨TypeName.accepts_object_iff.2 hobject, fun m hm id hid => hn m hm id hid _ _ (by omega)⟩

/-- A branch that accepts is enough, one level above. -/
theorem exists_within_of_branch {id other : SchemaId} {ids : List SchemaId}
    (hnode : (metaSchema.graph.node id).constraints = [.anyOf ids]) (hmem : other ∈ ids)
    (h : ∃ n, Within other v n) : ∃ n, Within id v n := by
  obtain ⟨n, hn⟩ := h
  refine ⟨n + 1, fun maxDepth depth hd => accepts_iff.2 ⟨by omega, ?_⟩⟩
  rw [hnode, List.forall_mem_singleton, verdict_anyOf_iff]
  exact ⟨other, hmem, hn _ _ (by omega)⟩

/-- What fits is accepted wherever enough levels are left. -/
theorem exists_within_of_fits (h : Fits shape v) : ∃ n, Within shape.node v n := by
  induction h with
  | plain h => exact ⟨2, fun maxDepth depth hd => Plain.accepts_of_meets hd h⟩
  | @schema v hobject _ ih =>
    refine exists_within_of_members rfl hobject fun m hm id hid => ?_
    rcases mem_coveringSchemas_iff.1 hid with hid | ⟨_, hid, -⟩ | ⟨hid, -⟩
    · rcases Shape.of_mem_keywords hid with rfl | ⟨shape, hkey, rfl⟩
      · exact ⟨0, fun maxDepth depth hd => accepts_iff.2 ⟨hd, fun c hc => by cases hc⟩⟩
      · exact ih shape m.1 m.2 hkey hm
    · cases hid
    · cases hid
  | @schemas v ha hne _ ih =>
    obtain ⟨n, hn⟩ := exists_common_bound (P := Within Vocabulary.schema) Within.mono ih
    have hnode : (metaSchema.graph.node Vocabulary.schemaArray).constraints =
        [.type [.array], .minItems 1, Vocabulary.listOf Vocabulary.schema] := rfl
    refine ⟨n + 1, fun maxDepth depth hd => accepts_iff.2 ⟨by omega, ?_⟩⟩
    rw [Shape.node, hnode, List.forall_mem_cons, List.forall_mem_cons, List.forall_mem_singleton,
      verdict_type_iff, verdict_minItems_one_iff ha, verdict_listOf_iff]
    exact ⟨TypeName.accepts_array_iff.2 ha, hne, fun w hw => hn w hw _ _ (by omega)⟩
  | oneSchema _ ih => exact exists_within_of_branch rfl (.head _) ih
  | manySchemas _ ih => exact exists_within_of_branch rfl (.tail _ (.head _)) ih
  | @boolean v b hb =>
    have hboolean : Within Vocabulary.boolean v 2 := fun maxDepth depth hd =>
      Plain.accepts_of_meets (p := .boolean) hd ⟨b, hb⟩
    exact exists_within_of_branch rfl (.head _) ⟨2, hboolean⟩
  | noBoolean _ ih => exact exists_within_of_branch rfl (.tail _ (.head _)) ih
  | @schemaMap v hobject _ ih =>
    refine exists_within_of_members rfl hobject fun m hm id hid => ?_
    rcases mem_coveringSchemas_iff.1 hid with hid | ⟨_, hid, -⟩ | ⟨hid, -⟩
    · cases hid
    · cases hid
    · cases hid
      exact ih m.1 m.2 hm

end Grammar

/-- **The meta-schema recognises exactly the schema documents.** A value without issues at some depth limit is a schema
document, and a schema document has none at every limit that is high enough. -/
theorem validate_metaSchema_iff_fits (v : Value) :
    (∀ maxDepth, metaSchema.validate maxDepth v = [] → Grammar.Fits .schema v) ∧
      (Grammar.Fits .schema v → ∃ enough, ∀ maxDepth, enough ≤ maxDepth → metaSchema.validate maxDepth v = []) := by
  refine ⟨fun maxDepth hnil => ?_, fun hfits => ?_⟩
  · have haccepts : Vocabulary.Accepts maxDepth 0 Grammar.Shape.schema.node v := Vocabulary.accepts_of_validate hnil
    exact Grammar.fits_of_accepts haccepts
  · obtain ⟨n, hn⟩ := Grammar.exists_within_of_fits hfits
    refine ⟨n, fun maxDepth hle => validate_eq_nil_iff_verdict.2 ?_⟩
    exact hn maxDepth 0 (by omega)

/-- A schema document with a list of types, members, a list of names and a reference. -/
def personDocument : Value :=
  ⟨⟨3, #[.object [("type", 1), ("properties", 4), ("required", 8), ("not", 10), ("default", 1)], .array [2, 3],
    .string "object", .string "null", .object [("name", 5)], .object [("minLength", 6), ("pattern", 7)], .integer 1,
    .string "^[A-Z]", .array [9], .string "name", .reference [("$ref", 11)], .string "#"]⟩, 0⟩

/-- A document that is its own `not`. -/
def endlessDocument : Value := ⟨⟨3, #[.object [("not", 0)]]⟩, 0⟩

theorem not_fits_endlessDocument : ¬ Grammar.Fits .schema endlessDocument := by
  intro h
  generalize hshape : Grammar.Shape.schema = shape at h
  generalize hv : endlessDocument = v at h
  induction h with
  | schema _ _ ih =>
    subst hv
    exact ih .schema "not" endlessDocument (by decide) (List.mem_singleton_self _) rfl rfl
  | _ => cases hshape

/-- The one is a schema document, accepted at every limit that is high enough; the other is none, and never accepted. -/
theorem validate_metaSchema_personDocument :
    metaSchema.validate 4 personDocument = [] ∧ Grammar.Fits .schema personDocument ∧
      (∃ enough, ∀ maxDepth, enough ≤ maxDepth → metaSchema.validate maxDepth personDocument = []) ∧
      ∀ maxDepth, metaSchema.validate maxDepth endlessDocument ≠ [] := by
  have hnil : metaSchema.validate 4 personDocument = [] :=
    List.isEmpty_iff.mp (by decide +kernel)
  have hfits := (validate_metaSchema_iff_fits personDocument).1 4 hnil
  refine ⟨hnil, hfits, (validate_metaSchema_iff_fits personDocument).2 hfits, fun maxDepth hnil => ?_⟩
  exact not_fits_endlessDocument ((validate_metaSchema_iff_fits endlessDocument).1 maxDepth hnil)

end JsonSchema
