import JsonSchema.Proofs.Environment
import JsonSchema.Schema.Compile

/-!
What the keywords of a schema document mean, given the nodes of the places of the document: a pure reading
(`Reading.node`) beside the computations that compile them. It has no result where a place has no node yet, or a
pattern is no regular expression. The constraints come out in one order, each keyword at most once
(`Reading.sublist_order`), and every place that the reading looks at is one that a keyword compiles
(`Subschema`).

A computation is said to read something (`Reads`) if what it answers can be read off the state after it, and off
every later state. This is kept when computations are put together, so each keyword computes its reading
(`SchemaSource.reads_node`) as soon as the places in it do.
-/

namespace JsonSchema

/-! ### The meaning of the keywords -/

/-- The keywords in the order in which their constraints stand in a node. -/
def Constraint.order : List String :=
  ["type", "minimum", "maximum", "multipleOf", "minLength", "maxLength", "pattern", "formatMinimum",
    "formatMaximum", "format", "minItems", "maxItems", "uniqueItems", "items", "minProperties", "maxProperties",
    "properties", "required", "enum", "allOf", "anyOf", "oneOf", "not"]

/-- A place with a schema document, the nodes of the places of the whole document, and the node that accepts
nothing. -/
structure Reading where
  value : Value
  pointer : Pointer
  node? : Pointer → Option SchemaId
  never? : Option SchemaId

namespace Reading

/-- The place of the value of a keyword. -/
def place (s : Reading) (keyword : String) : Pointer := s.pointer.child keyword

/-- The node of the schema that a keyword holds. -/
def single (s : Reading) (keyword : String) : Option (Option SchemaId) :=
  match s.value.get? keyword with
  | none => some none
  | some _ => some <$> s.node? (s.place keyword)

/-- The nodes of the schemas in the array that a keyword holds. -/
def sequence (s : Reading) (keyword : String) : Option (Option (List SchemaId)) :=
  match s.value.get? keyword with
  | none => some none
  | some v => some <$> v.elements.zipIdx.mapM fun m => s.node? ((s.place keyword).childIndex m.2)

/-- The node for the parts that no other keyword covers: `false` is the node that accepts nothing. -/
def additional (s : Reading) (keyword : String) : Option (Option SchemaId) :=
  match s.value.get? keyword with
  | none => some none
  | some v =>
    if v.asBool? = some false then some <$> s.never?
    else if v.isObject then s.single keyword
    else some none

/-- The constraint of a pattern. -/
def pattern (s : Reading) : Option (List Constraint) :=
  match Keyword.string? s.value "pattern" with
  | none => some []
  | some text => do return [.pattern (← Regex.ofText? text)]

/-- The constraint on the elements of arrays. -/
def items (s : Reading) : Option (List Constraint) :=
  match s.value.get? "items" with
  | none => some []
  | some v =>
    if v.isArray then do
      let additional ← s.additional "additionalItems"
      let schemas ← s.sequence "items"
      return [.items (.tuple (schemas.getD [])) additional]
    else do
      let schema ← s.single "items"
      return [.items (.single (schema.getD .empty)) none]

/-- The nodes of members with a given name. -/
def named (s : Reading) : Option (List (String × SchemaId)) :=
  match s.value.get? "properties" with
  | none => some []
  | some v => v.members.mapM fun m => (m.1, ·) <$> s.node? ((s.place "properties").child m.1)

/-- The nodes of members whose names match a pattern. -/
def patterns (s : Reading) : Option (List (Regex × SchemaId)) :=
  match s.value.get? "patternProperties" with
  | none => some []
  | some v => v.members.mapM fun m => do
    let regex ← Regex.ofText? m.1
    (regex, ·) <$> s.node? ((s.place "patternProperties").child m.1)

/-- The constraint on the members of objects. -/
def properties (s : Reading) : Option (List Constraint) := do
  let additional ← s.additional "additionalProperties"
  if (s.value.get? "properties").isSome || (s.value.get? "patternProperties").isSome || additional.isSome then
    let named ← s.named
    let patterns ← s.patterns
    return [.properties named patterns additional]
  else return []

/-- The constraints that combine schemas. -/
def combinations (s : Reading) : Option (List Constraint) := do
  let all ← s.sequence "allOf"
  let any ← s.sequence "anyOf"
  let one ← s.sequence "oneOf"
  let not ← s.single "not"
  return (all.map .allOf).toList ++ (any.map .anyOf).toList ++ (one.map .oneOf).toList ++
    (not.map .not).toList

/-- The constraints of all keywords. -/
def constraints (s : Reading) : Option (List Constraint) := do
  let pattern ← s.pattern
  let items ← s.items
  let properties ← s.properties
  let combinations ← s.combinations
  return Keyword.type s.value ++ Keyword.numeric s.value ++ Keyword.stringLengths s.value ++ pattern ++
    Keyword.stringForms s.value ++ Keyword.arraySizes s.value ++ items ++ Keyword.objectSizes s.value ++
    properties ++ Keyword.required s.value ++ Keyword.enum s.value ++ combinations

/-- The node of all keywords. -/
def node (s : Reading) : Option SchemaNode := do
  return ⟨← s.constraints, s.value.get? "default", Keyword.string? s.value "title",
    Keyword.string? s.value "description"⟩

end Reading

/-- The schemas that the keywords of a schema document compile, with their places. -/
inductive Subschema (v : Value) (p : Pointer) : Value → Pointer → Prop
  | not {w : Value} : v.get? "not" = some w → Subschema v p w (p.child "not")
  | items {w : Value} : v.get? "items" = some w → w.isArray = false → Subschema v p w (p.child "items")
  | additionalItems {items w : Value} : v.get? "items" = some items → items.isArray = true →
      v.get? "additionalItems" = some w → w.isObject = true → Subschema v p w (p.child "additionalItems")
  | additionalProperties {w : Value} : v.get? "additionalProperties" = some w → w.isObject = true →
      Subschema v p w (p.child "additionalProperties")
  | element {keyword : String} {w element : Value} {index : Nat} : keyword ∈ ["items", "allOf", "anyOf", "oneOf"] →
      v.get? keyword = some w → (element, index) ∈ w.elements.zipIdx →
      Subschema v p element ((p.child keyword).childIndex index)
  | member {keyword name : String} {w member : Value} : keyword ∈ ["properties", "patternProperties"] →
      v.get? keyword = some w → (name, member) ∈ w.members → Subschema v p member ((p.child keyword).child name)

/-- A keyword is `false` that forbids what no other keyword covers. -/
def Value.Forbids (v : Value) : Prop :=
  (v.get? "additionalProperties").bind Value.asBool? = some false ∨
    (∃ items, v.get? "items" = some items ∧ items.isArray = true) ∧
      (v.get? "additionalItems").bind Value.asBool? = some false

/-! ### What a reading looks at -/

theorem exists_of_mapM {α β : Type} {f : α → Option β} {l : List α} {bs : List β} (h : l.mapM f = some bs) {a : α}
    (ha : a ∈ l) : ∃ b, f a = some b := by
  induction l generalizing bs with
  | nil => cases ha
  | cons a' l ih =>
    rw [List.mapM_cons] at h
    obtain ⟨b, hb, h⟩ := Option.bind_eq_some_iff.mp h
    obtain ⟨bs', hbs, -⟩ := Option.bind_eq_some_iff.mp h
    rcases List.mem_cons.mp ha with rfl | ha
    · exact ⟨b, hb⟩
    · exact ih hbs ha

namespace Reading

variable {s : Reading} {keyword : String} {w : Value} {cs : List Constraint} {n : SchemaNode}

theorem node_of_single {schema : Option SchemaId} (h : s.single keyword = some schema)
    (hw : s.value.get? keyword = some w) : ∃ id, s.node? (s.pointer.child keyword) = some id := by
  simp only [single, hw] at h
  obtain ⟨id, hid, -⟩ := Option.map_eq_some_iff.mp h
  exact ⟨id, hid⟩

theorem node_of_sequence {schemas : Option (List SchemaId)} (h : s.sequence keyword = some schemas)
    (hw : s.value.get? keyword = some w) {m : Value × Nat} (hm : m ∈ w.elements.zipIdx) :
    ∃ id, s.node? ((s.pointer.child keyword).childIndex m.2) = some id := by
  simp only [sequence, hw] at h
  obtain ⟨ids, hids, -⟩ := Option.map_eq_some_iff.mp h
  exact exists_of_mapM hids hm

theorem node_of_additional {schema : Option SchemaId} (h : s.additional keyword = some schema)
    (hw : s.value.get? keyword = some w) (hobject : w.isObject = true) :
    ∃ id, s.node? (s.pointer.child keyword) = some id := by
  have hfalse : ¬w.asBool? = some false := by
    intro hfalse
    unfold Value.asBool? at hfalse
    unfold Value.isObject at hobject
    cases hn : w.node <;> simp [hn] at hfalse hobject
  simp only [additional, hw, if_neg hfalse, if_pos hobject] at h
  exact node_of_single h hw

/-- The parts of a node whose reading has a result have one. -/
theorem parts_of_node (h : s.node = some n) :
    ∃ pattern items properties combinations, s.pattern = some pattern ∧ s.items = some items ∧
      s.properties = some properties ∧ s.combinations = some combinations ∧
      n.constraints = Keyword.type s.value ++ Keyword.numeric s.value ++ Keyword.stringLengths s.value ++ pattern ++
        Keyword.stringForms s.value ++ Keyword.arraySizes s.value ++ items ++ Keyword.objectSizes s.value ++
        properties ++ Keyword.required s.value ++ Keyword.enum s.value ++ combinations := by
  obtain ⟨cs, hcs, hn⟩ := Option.bind_eq_some_iff.mp h
  obtain ⟨pattern, hpattern, hcs⟩ := Option.bind_eq_some_iff.mp hcs
  obtain ⟨items, hitems, hcs⟩ := Option.bind_eq_some_iff.mp hcs
  obtain ⟨properties, hproperties, hcs⟩ := Option.bind_eq_some_iff.mp hcs
  obtain ⟨combinations, hcombinations, hcs⟩ := Option.bind_eq_some_iff.mp hcs
  obtain rfl := Option.some.inj hcs
  obtain rfl := Option.some.inj hn
  exact ⟨pattern, items, properties, combinations, hpattern, hitems, hproperties, hcombinations, rfl⟩

theorem additional_of_properties (h : s.properties = some cs) :
    ∃ additional, s.additional "additionalProperties" = some additional := by
  obtain ⟨additional, ha, -⟩ := Option.bind_eq_some_iff.mp h
  exact ⟨additional, ha⟩

theorem additional_of_items (h : s.items = some cs) (hw : s.value.get? "items" = some w) (harray : w.isArray = true) :
    ∃ additional schemas, s.additional "additionalItems" = some additional ∧ s.sequence "items" = some schemas := by
  simp only [items, hw, if_pos harray] at h
  obtain ⟨additional, ha, h⟩ := Option.bind_eq_some_iff.mp h
  obtain ⟨schemas, hs, -⟩ := Option.bind_eq_some_iff.mp h
  exact ⟨additional, schemas, ha, hs⟩

theorem members_of_properties (h : s.properties = some cs)
    (hsome : ((s.value.get? "properties").isSome || (s.value.get? "patternProperties").isSome) = true) :
    ∃ named patterns, s.named = some named ∧ s.patterns = some patterns := by
  obtain ⟨additional, -, h⟩ := Option.bind_eq_some_iff.mp h
  simp only [hsome, Bool.true_or, if_true] at h
  obtain ⟨named, hnamed, h⟩ := Option.bind_eq_some_iff.mp h
  obtain ⟨patterns, hpatterns, -⟩ := Option.bind_eq_some_iff.mp h
  exact ⟨named, patterns, hnamed, hpatterns⟩

/-- Every schema that a keyword compiles has a node. -/
theorem node_of_subschema (h : s.node = some n) {q : Pointer} (hsub : Subschema s.value s.pointer w q) :
    ∃ id, s.node? q = some id := by
  obtain ⟨pattern, items, properties, combinations, -, hitems, hproperties, hcombinations, -⟩ := parts_of_node h
  obtain ⟨all, hall, hcombinations⟩ := Option.bind_eq_some_iff.mp hcombinations
  obtain ⟨any, hany, hcombinations⟩ := Option.bind_eq_some_iff.mp hcombinations
  obtain ⟨one, hone, hcombinations⟩ := Option.bind_eq_some_iff.mp hcombinations
  obtain ⟨not, hnot, -⟩ := Option.bind_eq_some_iff.mp hcombinations
  cases hsub with
  | not hw => exact node_of_single hnot hw
  | items hw harray =>
    simp only [Reading.items, hw, harray, Bool.false_eq_true, if_false] at hitems
    obtain ⟨schema, hs, -⟩ := Option.bind_eq_some_iff.mp hitems
    exact node_of_single hs hw
  | additionalItems hw harray ha hobject =>
    obtain ⟨additional, -, hadditional, -⟩ := additional_of_items hitems hw harray
    exact node_of_additional hadditional ha hobject
  | additionalProperties ha hobject =>
    obtain ⟨additional, hadditional⟩ := additional_of_properties hproperties
    exact node_of_additional hadditional ha hobject
  | @element keyword v element index hk hv hm =>
    simp only [List.mem_cons, List.not_mem_nil, or_false] at hk
    rcases hk with rfl | rfl | rfl | rfl
    · have harray := Value.isArray_of_mem_elements (List.fst_mem_of_mem_zipIdx hm)
      obtain ⟨-, schemas, -, hs⟩ := additional_of_items hitems hv harray
      exact node_of_sequence hs hv hm
    · exact node_of_sequence hall hv hm
    · exact node_of_sequence hany hv hm
    · exact node_of_sequence hone hv hm
  | @member keyword name v member hk hv hm =>
    simp only [List.mem_cons, List.not_mem_nil, or_false] at hk
    rcases hk with rfl | rfl
    · obtain ⟨named, -, hnamed, -⟩ := members_of_properties hproperties (by rw [hv]; rfl)
      simp only [Reading.named, hv] at hnamed
      obtain ⟨b, hb⟩ := exists_of_mapM hnamed hm
      obtain ⟨id, hid, -⟩ := Option.map_eq_some_iff.mp hb
      exact ⟨id, hid⟩
    · obtain ⟨-, patterns, -, hpatterns⟩ := members_of_properties hproperties (by rw [hv]; simp)
      simp only [Reading.patterns, hv] at hpatterns
      obtain ⟨b, hb⟩ := exists_of_mapM hpatterns hm
      obtain ⟨regex, -, hb⟩ := Option.bind_eq_some_iff.mp hb
      obtain ⟨id, hid, -⟩ := Option.map_eq_some_iff.mp hb
      exact ⟨id, hid⟩

end Reading

/-! ### Computations that read something -/

/-- What a construction never loses: documents at hand, nodes of places, filled nodes. -/
structure Compilation.Grows (x x' : Compilation) : Prop where
  store : x.store.cache.Grows x'.store.cache
  known : ∀ {place id}, x.known.lookup place = some id → x'.known.lookup place = some id
  nodes : ∀ {i : Nat} {node}, x.builder.nodes[i]? = some node → x'.builder.nodes[i]? = some node
  never : ∀ {id}, x.builder.never? = some id → x'.builder.never? = some id

theorem Compilation.Grows.refl (x : Compilation) : x.Grows x := ⟨.refl _, id, id, id⟩

theorem Compilation.Grows.trans {x x' x'' : Compilation} (h : x.Grows x') (h' : x'.Grows x'') : x.Grows x'' :=
  ⟨h.store.trans h'.store, fun hk => h'.known (h.known hk), fun hn => h'.nodes (h.nodes hn),
    fun hn => h'.never (h.never hn)⟩

/-- A computation that does to the documents at hand only what following references does. -/
def Quiet (document : Document) {α : Type} (y : Compiling α) : Prop :=
  ∀ x : Compilation, x.store.Extends document (y x).2.store

namespace Quiet

variable {document : Document} {α β : Type} {y : Compiling α}

theorem extends_of_eq (h : Quiet document y) {x x' : Compilation} {result : Except SchemaError α}
    (hrun : y x = (result, x')) : x.store.Extends document x'.store := by
  have := h x
  rwa [hrun] at this

theorem of_store (h : ∀ x, (y x).2.store = x.store) : Quiet document y := fun x => by
  rw [h x]
  exact .refl document x.store

theorem bind {f : α → Compiling β} (h : Quiet document y) (hf : ∀ a, Quiet document (f a)) :
    Quiet document (y >>= f) := by
  intro x
  rw [run_bind]
  split
  · next a x' hy => exact (h.extends_of_eq hy).trans (hf a x')
  · next e x' hy => exact h.extends_of_eq hy

end Quiet

/-- A computation, begun in a state with the property `I`, keeps that and answers what can be read off every later
state, as long as no document comes to hand that is not in the cache `final`. -/
structure Reads (I : Compilation → Prop) (document : Document) (final : Cache) {α : Type} (y : Compiling α)
    (read : Compilation → Option α) : Prop where
  quiet : Quiet document y
  stable : ∀ {x x' : Compilation} {a : α}, x.Grows x' → read x = some a → read x' = some a
  answers : ∀ {x x' : Compilation} {a : α}, I x → y x = (.ok a, x') → x'.store.cache.Grows final →
    I x' ∧ x.Grows x' ∧ read x' = some a

namespace Reads

variable {I : Compilation → Prop} {document : Document} {final : Cache} {α β : Type} {y : Compiling α}
  {read : Compilation → Option α}

theorem pure (a : α) : Reads I document final (pure a) fun _ => some a := by
  refine ⟨.of_store fun _ => rfl, fun _ => id, fun {x x' b} hI hrun _ => ?_⟩
  cases hrun
  exact ⟨hI, .refl x, rfl⟩

theorem except (e : Except SchemaError α) (result : Option α) (h : ∀ a, e = .ok a → result = some a) :
    Reads I document final (liftM e) fun _ => result := by
  refine ⟨.of_store fun _ => rfl, fun _ => id, fun {x x' b} hI hrun _ => ?_⟩
  obtain ⟨he, rfl⟩ := Prod.mk.inj ((run_except e x).symm.trans hrun)
  exact ⟨hI, .refl x, h b he⟩

theorem bind {f : α → Compiling β} {reads : α → Compilation → Option β} (h : Reads I document final y read)
    (hf : ∀ a, Reads I document final (f a) (reads a)) :
    Reads I document final (y >>= f) fun x => read x >>= fun a => reads a x := by
  refine ⟨h.quiet.bind fun a => (hf a).quiet, fun {x x' b} hg hread => ?_, fun {x x' b} hI hrun hfinal => ?_⟩
  · obtain ⟨a, ha, hb⟩ := Option.bind_eq_some_iff.mp hread
    exact Option.bind_eq_some_iff.mpr ⟨a, h.stable hg ha, (hf a).stable hg hb⟩
  · obtain ⟨a, x₁, hy, hrest⟩ := run_bind_eq_ok hrun
    have hgrows := ((hf a).quiet.extends_of_eq hrest).grows
    obtain ⟨hI₁, hg₁, ha⟩ := h.answers hI hy (hgrows.trans hfinal)
    obtain ⟨hI', hg', hb⟩ := (hf a).answers hI₁ hrest hfinal
    exact ⟨hI', hg₁.trans hg', Option.bind_eq_some_iff.mpr ⟨a, h.stable hg' ha, hb⟩⟩

theorem map (f : α → β) (h : Reads I document final y read) :
    Reads I document final (f <$> y) fun x => f <$> read x := by
  have hread : (fun x => f <$> read x) = fun x => read x >>= fun a => some (f a) := by
    funext x
    cases read x <;> rfl
  rw [hread, map_eq_pure_bind]
  exact h.bind fun a => .pure (f a)

theorem mapM {l : List β} {f : β → Compiling α} {reads : β → Compilation → Option α}
    (h : ∀ b ∈ l, Reads I document final (f b) (reads b)) :
    Reads I document final (l.mapM f) fun x => l.mapM fun b => reads b x := by
  induction l with
  | nil => exact .pure []
  | cons b l ih =>
    simp only [List.mapM_cons]
    exact (h b List.mem_cons_self).bind fun a =>
      (ih fun b hb => h b (List.mem_cons_of_mem _ hb)).bind fun as => .pure (a :: as)

end Reads

/-! ### Keywords compute their meaning -/

namespace SchemaSource

/-- The reading of a schema document, by the nodes that places have in a state. -/
def reading (s : SchemaSource) (x : Compilation) : Reading :=
  ⟨s.value, s.pointer, fun q => x.known.lookup (s.document.location q), x.builder.never?⟩

variable {s : SchemaSource} {I : Compilation → Prop} {document : Document} {final : Cache}

/-- A regular expression that was read is the one of the text. -/
theorem ofText?_of_regex {text : String} {place : Pointer} {regex : Regex} (h : s.regex text place = .ok regex) :
    Regex.ofText? text = some regex := by
  unfold SchemaSource.regex at h
  split at h
  · cases h
  · cases hr : Regex.ofText? text with
    | none =>
      rw [hr] at h
      cases h
    | some regex' =>
      rw [hr] at h
      cases h
      rfl

theorem reads_pattern : Reads I document final s.pattern fun x => (s.reading x).pattern := by
  cases ht : Keyword.string? s.value "pattern" with
  | none =>
    simp only [pattern, Reading.pattern, reading, ht]
    exact .pure []
  | some text =>
    simp only [pattern, Reading.pattern, reading, ht]
    exact (Reads.except _ _ fun a ha => ofText?_of_regex ha).bind fun regex => .pure [Constraint.pattern regex]

section

variable (hchild : ∀ w q, Subschema s.value s.pointer w q →
  Reads I document final (s.child w q) fun x => x.known.lookup (s.document.location q))

include hchild

theorem reads_single {keyword : String}
    (h : ∀ w, s.value.get? keyword = some w → Subschema s.value s.pointer w (s.pointer.child keyword)) :
    Reads I document final (s.single keyword) fun x => (s.reading x).single keyword := by
  cases hw : s.value.get? keyword with
  | none =>
    simp only [single, Reading.single, reading, hw]
    exact .pure none
  | some w =>
    simp only [single, Reading.single, reading, hw]
    exact (hchild _ _ (h w hw)).map some

theorem reads_sequence {keyword : String} (h : keyword ∈ ["items", "allOf", "anyOf", "oneOf"]) :
    Reads I document final (s.sequence keyword) fun x => (s.reading x).sequence keyword := by
  cases hw : s.value.get? keyword with
  | none =>
    simp only [sequence, Reading.sequence, reading, hw]
    exact .pure none
  | some w =>
    simp only [sequence, Reading.sequence, reading, hw]
    exact (Reads.mapM fun m hm => hchild _ _ (.element h hw hm)).map some

theorem reads_named : Reads I document final s.named fun x => (s.reading x).named := by
  cases hw : s.value.get? "properties" with
  | none =>
    simp only [named, Reading.named, reading, hw]
    exact .pure []
  | some w =>
    simp only [named, Reading.named, reading, hw]
    refine Reads.mapM fun m hm => ?_
    exact (hchild _ _ (.member (by simp) hw hm)).map (m.1, ·)

theorem reads_patterns : Reads I document final s.patterns fun x => (s.reading x).patterns := by
  cases hw : s.value.get? "patternProperties" with
  | none =>
    simp only [patterns, Reading.patterns, reading, hw]
    exact .pure []
  | some w =>
    simp only [patterns, Reading.patterns, reading, hw]
    refine Reads.mapM fun m hm => ?_
    refine (Reads.except _ _ fun a ha => ofText?_of_regex ha).bind fun regex => ?_
    exact (hchild _ _ (.member (by simp) hw hm)).map (regex, ·)

theorem reads_combinations : Reads I document final s.combinations fun x => (s.reading x).combinations :=
  (reads_sequence hchild (by simp)).bind fun _ => (reads_sequence hchild (by simp)).bind fun _ =>
    (reads_sequence hchild (by simp)).bind fun _ => (reads_single hchild fun _ hw => .not hw).bind fun _ => .pure _

variable (hnever : s.value.Forbids →
  Reads I document final (Compilation.building SchemaBuilder.never) fun x => x.builder.never?)

include hnever

/-- The schema or the prohibition that a keyword holds, where it counts. -/
theorem reads_additional {keyword : String}
    (h : ∀ w, s.value.get? keyword = some w → w.isObject = true →
      Subschema s.value s.pointer w (s.pointer.child keyword))
    (hforbids : (s.value.get? keyword).bind Value.asBool? = some false → s.value.Forbids) :
    Reads I document final (s.additional keyword) fun x => (s.reading x).additional keyword := by
  cases hw : s.value.get? keyword with
  | none =>
    simp only [additional, Reading.additional, reading, hw]
    exact .pure none
  | some w =>
    simp only [additional, Reading.additional, reading, hw]
    by_cases hfalse : w.asBool? = some false
    · simp only [if_pos hfalse]
      exact (hnever (hforbids (by rw [hw, Option.bind_some, hfalse]))).map some
    · by_cases hobject : w.isObject = true
      · simp only [if_neg hfalse, if_pos hobject]
        refine reads_single hchild fun w' hw' => ?_
        cases hw.symm.trans hw'
        exact h w hw hobject
      · simp only [if_neg hfalse, if_neg hobject]
        exact .pure none

theorem reads_items : Reads I document final s.items fun x => (s.reading x).items := by
  cases hw : s.value.get? "items" with
  | none =>
    simp only [items, Reading.items, reading, hw]
    exact .pure []
  | some w =>
    simp only [items, Reading.items, reading, hw]
    by_cases harray : w.isArray = true
    · simp only [if_pos harray]
      refine (reads_additional hchild hnever (fun a ha hobject => .additionalItems hw harray ha hobject)
        fun hfalse => .inr ⟨⟨w, hw, harray⟩, hfalse⟩).bind fun additional => ?_
      exact (reads_sequence hchild (by simp)).bind fun schemas => .pure _
    · simp only [if_neg harray]
      refine (reads_single hchild fun w' hw' => ?_).bind fun schema => .pure _
      cases hw.symm.trans hw'
      exact .items hw (by simpa using harray)

theorem reads_properties : Reads I document final s.properties fun x => (s.reading x).properties := by
  refine (reads_additional hchild hnever (fun a ha hobject => .additionalProperties ha hobject) .inl).bind
    fun additional => ?_
  by_cases hany : ((s.value.get? "properties").isSome || (s.value.get? "patternProperties").isSome ||
      additional.isSome) = true
  · simp only [reading, hany, if_true]
    exact (reads_named hchild).bind fun named => (reads_patterns hchild).bind fun patterns => .pure _
  · simp only [reading, hany, Bool.false_eq_true, if_false]
    exact .pure []

theorem reads_constraints : Reads I document final s.constraints fun x => (s.reading x).constraints :=
  reads_pattern.bind fun _ => (reads_items hchild hnever).bind fun _ =>
    (reads_properties hchild hnever).bind fun _ => (reads_combinations hchild).bind fun _ => .pure _

/-- **The keywords of a schema document compute their meaning**, if the places in it do. -/
theorem reads_node : Reads I document final s.node fun x => (s.reading x).node :=
  (reads_constraints hchild hnever).bind fun _ => .pure _

end

end SchemaSource

end JsonSchema
