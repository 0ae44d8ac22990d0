import JsonSchema.Proofs.Equality
import JsonSchema.Proofs.Places
import JsonSchema.Proofs.Rounding
import JsonSchema.Proofs.Verdict
import JsonSchema.Schema.Keyword
import JsonSchema.Schema.Vocabulary

/-!
What the meta-schema says of a schema document. It is a schema like any other, so what it accepts is told by the verdict
(`Vocabulary.Accepts`), and each of its nodes comes with one lemma: the values that it accepts have the shape that the
keyword of the same kind is read by. Every keyword of an accepted schema document is accepted one level deeper
(`Accepts.keyword`).

The meta-schema asks counts to be integers from zero on as floating-point numbers, while they are read as the integers
that they are. This agrees because no negative integer is rounded to zero (`Double.zero_le_ofInt_iff`).
-/

namespace JsonSchema

/-! ### Values of a type -/

namespace TypeName

variable {v : Value}

theorem accepts_string_iff : string.accepts v = true ↔ ∃ text, v.asString? = some text := by
  unfold accepts Value.asString?
  cases v.node <;> simp

theorem accepts_boolean_iff : boolean.accepts v = true ↔ ∃ b, v.asBool? = some b := by
  unfold accepts Value.asBool?
  cases v.node <;> simp

theorem accepts_number_iff : number.accepts v = true ↔ ∃ x, v.asDouble? = some x := by
  unfold accepts Value.asDouble?
  cases v.node <;> simp

theorem accepts_array_iff : array.accepts v = true ↔ v.isArray = true := by
  unfold accepts Value.isArray
  cases v.node <;> simp

theorem accepts_object_iff : object.accepts v = true ↔ v.isObject = true := by
  unfold accepts Value.isObject
  cases v.node <;> simp

theorem ofName?_name (t : TypeName) : ofName? t.name = some t := by cases t <;> rfl

end TypeName

namespace Value

variable {v : Value}

theorem isArray_eq_false_of_isObject (h : v.isObject = true) : v.isArray = false := by
  unfold isObject at h
  unfold isArray
  cases hn : v.node <;> simp [hn] at h ⊢

theorem asBool?_of_isObject (h : v.isObject = true) : v.asBool? = none := by
  unfold isObject at h
  unfold asBool?
  cases hn : v.node <;> simp [hn] at h ⊢

theorem asString?_eq_some_iff {text : String} : v.asString? = some text ↔ v.node = .string text := by
  cases hn : v.node <;> simp [asString?, hn]

theorem isArray_eq_false_of_asString? {text : String} (h : v.asString? = some text) : v.isArray = false := by
  rw [isArray, asString?_eq_some_iff.1 h]

theorem eq_of_asString? {w : Value} {text : String} (h : v.asString? = some text) :
    v.eq w = Node.scalarEq (.string text) w.node := by
  have hnode := asString?_eq_some_iff.1 h
  rw [eq_scalarEq (by rw [hnode]; rfl), hnode]

end Value

/-! ### Constraints -/

section

variable {below : SchemaId → Value → Verdict} {v : Value}

theorem verdict_type_iff {kind : TypeName} :
    (Constraint.type [kind]).verdict below v = .valid ↔ kind.accepts v = true := by
  simp [Constraint.verdict, Constraint.holds, Verdict.ofBool_eq_valid_iff]

theorem verdict_format_iff {f : Format} {text : String} (ht : v.asString? = some text) :
    (Constraint.format f).verdict below v = .valid ↔ f.accepts text = true := by
  simp [Constraint.verdict, Constraint.holds, Verdict.ofBool_eq_valid_iff, ht]

theorem verdict_minimum_iff {bound x : Double} {exclusive : Bool} (hx : v.asDouble? = some x) :
    (Constraint.minimum bound exclusive).verdict below v = .valid ↔
      (if exclusive then bound.lt x else bound.le x) = true := by
  simp [Constraint.verdict, Constraint.holds, Verdict.ofBool_eq_valid_iff, hx]

theorem verdict_maximum_iff {bound x : Double} {exclusive : Bool} (hx : v.asDouble? = some x) :
    (Constraint.maximum bound exclusive).verdict below v = .valid ↔
      (if exclusive then x.lt bound else x.le bound) = true := by
  simp [Constraint.verdict, Constraint.holds, Verdict.ofBool_eq_valid_iff, hx]

theorem verdict_uniqueItems_iff (ha : v.isArray = true) :
    Constraint.uniqueItems.verdict below v = .valid ↔ Value.distinct v.elements = true := by
  simp [Constraint.verdict, Constraint.holds, Verdict.ofBool_eq_valid_iff, ha]

theorem verdict_minItems_one_iff (ha : v.isArray = true) :
    (Constraint.minItems 1).verdict below v = .valid ↔ v.elements ≠ [] := by
  have hlength : v.length = v.elements.length := by
    unfold Value.isArray at ha
    unfold Value.length Value.elements
    cases hn : v.node <;> simp [hn, Node.children, Node.items] at ha ⊢
  simp [Constraint.verdict, Constraint.holds, Verdict.ofBool_eq_valid_iff, ha, hlength, Nat.succ_le_iff,
    List.length_pos_iff]

theorem verdict_listOf_iff {id : SchemaId} :
    (Vocabulary.listOf id).verdict below v = .valid ↔ ∀ w ∈ v.elements, below id w = .valid := by
  simp [Vocabulary.listOf, Constraint.verdict, Constraint.parts, Verdict.all_eq_valid_iff]

theorem verdict_anyOf_iff {ids : List SchemaId} :
    (Constraint.anyOf ids).verdict below v = .valid ↔ ∃ id ∈ ids, below id v = .valid := by
  simp [Constraint.verdict, Verdict.any_eq_valid_iff]

theorem verdict_properties_iff {named : List (String × SchemaId)} {additional : Option SchemaId} :
    (Constraint.properties named [] additional).verdict below v = .valid ↔
      ∀ m ∈ v.members, ∀ id ∈ coveringSchemas named [] additional m.1, below id m.2 = .valid := by
  simp only [Constraint.verdict, Constraint.parts, Verdict.all_eq_valid_iff, List.forall_mem_map,
    List.forall_mem_flatMap]

end

namespace Vocabulary

/-- A node of the meta-schema accepts a value at a depth. -/
def Accepts (maxDepth depth : Nat) (id : SchemaId) (v : Value) : Prop :=
  metaSchema.graph.verdict maxDepth depth id v = .valid

theorem accepts_of_validate {maxDepth : Nat} {v : Value} (h : metaSchema.validate maxDepth v = []) :
    Accepts maxDepth 0 schema v := validate_eq_nil_iff_verdict.1 h

namespace Accepts

variable {maxDepth depth : Nat} {id other : SchemaId} {v w : Value}

theorem accepts_iff : Accepts maxDepth depth id v ↔ depth ≤ maxDepth ∧
    ∀ c ∈ (metaSchema.graph.node id).constraints,
      c.verdict (metaSchema.graph.verdict maxDepth (depth + 1)) v = .valid := by
  unfold Accepts
  rw [SchemaGraph.verdict]
  split
  · exact iff_of_false (fun h => by cases h) fun h => by omega
  · rw [Verdict.all_eq_valid_iff, List.forall_mem_map]
    exact (and_iff_right (by omega)).symm

/-- Nothing is accepted below the depth limit. -/
theorem le (h : Accepts maxDepth depth id v) : depth ≤ maxDepth := (accepts_iff.1 h).1

theorem constraint {c : Constraint} (h : Accepts maxDepth depth id v)
    (hc : c ∈ (metaSchema.graph.node id).constraints) :
    c.verdict (metaSchema.graph.verdict maxDepth (depth + 1)) v = .valid :=
  (accepts_iff.1 h).2 c hc

/-! ### Parts -/

theorem type {kind : TypeName} (h : Accepts maxDepth depth id v)
    (hc : .type [kind] ∈ (metaSchema.graph.node id).constraints) : kind.accepts v = true :=
  verdict_type_iff.1 (h.constraint hc)

theorem format {f : Format} (h : Accepts maxDepth depth id v)
    (htype : .type [.string] ∈ (metaSchema.graph.node id).constraints)
    (hc : .format f ∈ (metaSchema.graph.node id).constraints) :
    ∃ text, v.asString? = some text ∧ f.accepts text = true := by
  obtain ⟨text, ht⟩ := TypeName.accepts_string_iff.1 (h.type htype)
  exact ⟨text, ht, (verdict_format_iff ht).1 (h.constraint hc)⟩

/-- One of the branches accepts the value, one level deeper. -/
theorem branch {ids : List SchemaId} (h : Accepts maxDepth depth id v)
    (hc : .anyOf ids ∈ (metaSchema.graph.node id).constraints) : ∃ other ∈ ids, Accepts maxDepth (depth + 1) other v :=
  verdict_anyOf_iff.1 (h.constraint hc)

/-- The elements are accepted one level deeper. -/
theorem element (h : Accepts maxDepth depth id v) (hc : listOf other ∈ (metaSchema.graph.node id).constraints)
    (hw : w ∈ v.elements) : Accepts maxDepth (depth + 1) other w :=
  verdict_listOf_iff.1 (h.constraint hc) w hw

/-- The members are accepted one level deeper. -/
theorem member {named : List (String × SchemaId)} {additional : Option SchemaId} {key : String}
    (h : Accepts maxDepth depth id v) (hc : .properties named [] additional ∈ (metaSchema.graph.node id).constraints)
    (hw : (key, w) ∈ v.members) (ho : other ∈ coveringSchemas named [] additional key) :
    Accepts maxDepth (depth + 1) other w :=
  verdict_properties_iff.1 (h.constraint hc) (key, w) hw other ho

theorem elements_ne_nil (h : Accepts maxDepth depth id v)
    (hc : .minItems 1 ∈ (metaSchema.graph.node id).constraints) (ha : v.isArray = true) : v.elements ≠ [] :=
  (verdict_minItems_one_iff ha).1 (h.constraint hc)

/-! ### Scalars -/

theorem string (h : Accepts maxDepth depth string v) : ∃ text, v.asString? = some text :=
  TypeName.accepts_string_iff.1 (h.type (.head _))

theorem boolean (h : Accepts maxDepth depth boolean v) : ∃ b, v.asBool? = some b :=
  TypeName.accepts_boolean_iff.1 (h.type (.head _))

theorem number (h : Accepts maxDepth depth number v) : ∃ x, v.asDouble? = some x :=
  TypeName.accepts_number_iff.1 (h.type (.head _))

theorem positiveNumber (h : Accepts maxDepth depth positiveNumber v) : ∃ x, v.asDouble? = some x :=
  TypeName.accepts_number_iff.1 (h.type (.head _))

theorem count (h : Accepts maxDepth depth count v) : ∃ n, Keyword.asCount? v = some n := by
  have hinteger : TypeName.integer.accepts v = true := h.type (.head _)
  have hmin := Verdict.ofBool_eq_valid_iff.1 (h.constraint (.tail _ (.head _)))
  unfold TypeName.accepts at hinteger
  unfold Keyword.asCount?
  cases hn : v.node with
  | integer i =>
    have hi : (Double.zero false).le (Double.ofInt i.toInt) = true := by
      simpa [Constraint.holds, Value.asDouble?, hn] using hmin
    have hi : 0 ≤ i.toInt := (Double.zero_le_ofInt_iff (Double.natAbs_toInt_lt i)).1 hi
    exact ⟨i.toInt.toNat, if_neg (by omega)⟩
  | number x =>
    have hx : (Double.zero false).le x = true := by simpa [Constraint.holds, Value.asDouble?, hn] using hmin
    have hintegral : x.isIntegral = true := by simpa [hn] using hinteger
    exact ⟨_, if_pos (by rw [hx, hintegral]; rfl)⟩
  | _ => simp [hn] at hinteger

theorem dateTime (h : Accepts maxDepth depth dateTime v) :
    ∃ text t, v.asString? = some text ∧ DateTime.parseZoned? text = some t := by
  obtain ⟨text, ht, hformat⟩ := h.format (.head _) (.tail _ (.head _))
  exact ⟨text, _, ht, (Option.some_get hformat).symm⟩

theorem regex (h : Accepts maxDepth depth regex v) :
    ∃ text regex, v.asString? = some text ∧ Regex.ofText? text = some regex := by
  obtain ⟨text, ht, hformat⟩ := h.format (.head _) (.tail _ (.head _))
  exact ⟨text, _, ht, (Option.some_get hformat).symm⟩

theorem typeName (h : Accepts maxDepth depth typeName v) : ∃ t : TypeName, v.asString? = some t.name := by
  obtain ⟨text, ht⟩ := TypeName.accepts_string_iff.1 (h.type (.head _))
  have henum := Verdict.ofBool_eq_valid_iff.1 (h.constraint (.tail _ (.head _)))
  obtain ⟨allowed, ha, heq⟩ := List.any_eq_true.mp henum
  have hname : ∀ allowed ∈ typeNameValues, ∃ t ∈ TypeName.all, allowed.node = .string t.name := by decide
  obtain ⟨t, -, hnode⟩ := hname allowed ha
  rw [Value.eq_of_asString? (Value.asString?_eq_some_iff.2 hnode), Value.asString?_eq_some_iff.1 ht, Node.scalarEq,
    beq_iff_eq] at heq
  exact ⟨t, heq ▸ ht⟩

/-! ### Arrays and objects -/

theorem array (h : Accepts maxDepth depth array v) : v.isArray = true :=
  TypeName.accepts_array_iff.1 (h.type (.head _))

/-- Lists of strings. -/
theorem stringSet (h : Accepts maxDepth depth stringSet v) :
    v.isArray = true ∧ ∀ w ∈ v.elements, ∃ text, w.asString? = some text :=
  ⟨TypeName.accepts_array_iff.1 (h.type (.head _)), fun _ hw => (h.element (.tail _ (.tail _ (.head _))) hw).string⟩

/-- A name of a type, or a list of some. -/
theorem typeKeyword (h : Accepts maxDepth depth typeKeyword v) : (∃ t : TypeName, v.asString? = some t.name) ∨
    v.isArray = true ∧ v.elements ≠ [] ∧ ∀ w ∈ v.elements, ∃ t : TypeName, w.asString? = some t.name := by
  obtain ⟨other, ho, h⟩ := h.branch (.head _)
  rcases List.mem_pair.mp ho with rfl | rfl
  · exact .inl h.typeName
  · have ha := TypeName.accepts_array_iff.1 (h.type (.head _))
    refine .inr ⟨ha, h.elements_ne_nil (.tail _ (.head _)) ha, fun w hw => ?_⟩
    exact (h.element (.tail _ (.tail _ (.tail _ (.head _)))) hw).typeName

/-! ### Schemas -/

theorem isObject (h : Accepts maxDepth depth schema v) : v.isObject = true :=
  TypeName.accepts_object_iff.1 (h.type (.head _))

/-- **Every keyword of an accepted schema document is accepted** by the schema for its value. -/
theorem keyword {key : String} (h : Accepts maxDepth depth schema v) (hk : (key, id) ∈ keywords)
    (hw : v.get? key = some w) : Accepts maxDepth (depth + 1) id w := by
  exact h.member (.tail _ (.head _)) (Value.mem_members_of_get? hw) (mem_coveringSchemas_iff.2 (.inl hk))

theorem schemaArray (h : Accepts maxDepth depth schemaArray v) :
    v.isArray = true ∧ v.elements ≠ [] ∧ ∀ w ∈ v.elements, Accepts maxDepth (depth + 1) schema w := by
  have ha := TypeName.accepts_array_iff.1 (h.type (.head _))
  exact ⟨ha, h.elements_ne_nil (.tail _ (.head _)) ha, fun _ hw => h.element (.tail _ (.tail _ (.head _))) hw⟩

theorem schemaMap (h : Accepts maxDepth depth schemaMap v) :
    v.isObject = true ∧ ∀ m ∈ v.members, Accepts maxDepth (depth + 1) schema m.2 := by
  refine ⟨TypeName.accepts_object_iff.1 (h.type (.head _)), fun m hm => ?_⟩
  exact h.member (.tail _ (.head _)) hm (.head _)

theorem itemsKeyword (h : Accepts maxDepth depth itemsKeyword v) :
    Accepts maxDepth (depth + 1) schema v ∨ Accepts maxDepth (depth + 1) Vocabulary.schemaArray v := by
  obtain ⟨other, ho, h⟩ := h.branch (.head _)
  rcases List.mem_pair.mp ho with rfl | rfl
  · exact .inl h
  · exact .inr h

theorem booleanOrSchema (h : Accepts maxDepth depth booleanOrSchema v) :
    (∃ b, v.asBool? = some b) ∨ Accepts maxDepth (depth + 1) schema v := by
  obtain ⟨other, ho, h⟩ := h.branch (.head _)
  rcases List.mem_pair.mp ho with rfl | rfl
  · exact .inl h.boolean
  · exact .inr h

end Accepts

end Vocabulary

end JsonSchema
