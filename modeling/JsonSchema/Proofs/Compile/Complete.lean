import JsonSchema.Proofs.Compile.Denotation

/-!
No keyword is dropped. A node is complete for a schema document (`Complete`) if every keyword that is present has left
its constraint there, with all its entries. Keywords are read by functions that may find nothing, so a node is complete
only because the meta-schema accepts the schema document: it tells that each keyword has the shape by which it is read.

The schemas in an accepted schema document are accepted at greater depths (`Accepts.subschema`), so acceptance goes down
with the construction.
-/

namespace JsonSchema

open Vocabulary

/-! ### What a complete node holds -/

namespace Keyword

/-- The keywords that hold numbers, with their constraints. -/
def numbers (v : Value) : List (String × (Double → Constraint)) :=
  [("minimum", fun x => .minimum x (flag v "exclusiveMinimum")),
    ("maximum", fun x => .maximum x (flag v "exclusiveMaximum")), ("multipleOf", .multipleOf)]

/-- The keywords that hold counts, with their constraints. -/
def counts : List (String × (Nat → Constraint)) :=
  [("minLength", .minLength), ("maxLength", .maxLength), ("minItems", .minItems), ("maxItems", .maxItems),
    ("minProperties", .minProperties), ("maxProperties", .maxProperties)]

/-- The keywords that hold date-times, with their constraints. -/
def dateTimes (v : Value) : List (String × (DateTime → Constraint)) :=
  [("formatMinimum", fun t => .formatMinimum t (flag v "formatExclusiveMinimum")),
    ("formatMaximum", fun t => .formatMaximum t (flag v "formatExclusiveMaximum"))]

/-- The keywords that make the bounds of others exclusive. -/
def flags : List String :=
  ["exclusiveMinimum", "exclusiveMaximum", "formatExclusiveMinimum", "formatExclusiveMaximum"]

/-- The keywords that combine lists of schemas, with their constraints. -/
def combinations : List (String × (List SchemaId → Constraint)) :=
  [("allOf", .allOf), ("anyOf", .anyOf), ("oneOf", .oneOf)]

end Keyword

/-- The values that a keyword lists: the elements of an array, and any other value itself. -/
def Value.listed (w : Value) : List Value := if w.isArray then w.elements else [w]

namespace Nodes

variable (n : Nodes) (v : Value) (p : Pointer)

/-- The nodes of the members with a given name, with their names. -/
def Named (named : List (String × SchemaId)) : Prop :=
  match v.get? "properties" with
  | none => named = []
  | some w => w.isObject = true ∧
    List.Forall₂ (fun m entry => entry.1 = m.1 ∧ n.place ((p.child "properties").child m.1) entry.2) w.members named

/-- The nodes of the members whose names match a pattern, with their patterns. -/
def Patterns (patterns : List (Regex × SchemaId)) : Prop :=
  match v.get? "patternProperties" with
  | none => patterns = []
  | some w => w.isObject = true ∧
    List.Forall₂ (fun m entry => Regex.ofText? m.1 = some entry.1 ∧
      n.place ((p.child "patternProperties").child m.1) entry.2) w.members patterns

/-- The node for the parts that no other keyword covers. Only an absent keyword and `true` have none. -/
inductive Additional (keyword : String) : Option SchemaId → Prop
  | absent : v.get? keyword = none → Additional keyword none
  | allowed {w : Value} : v.get? keyword = some w → w.asBool? = some true → Additional keyword none
  | forbidden {w : Value} {id : SchemaId} : v.get? keyword = some w → w.asBool? = some false → n.never id →
      Additional keyword (some id)
  | restricted {w : Value} {id : SchemaId} : v.get? keyword = some w → w.isObject = true →
      n.place (p.child keyword) id → Additional keyword (some id)

/-- The constraint on the elements of arrays. -/
def Items (cs : List Constraint) : Prop :=
  ∀ w, v.get? "items" = some w →
    w.isArray = true ∧ w.elements ≠ [] ∧ (∃ ids additional, .items (.tuple ids) additional ∈ cs ∧
      n.Elements (p.child "items") w ids ∧ n.Additional v p "additionalItems" additional) ∨
    w.isObject = true ∧ ∃ id, .items (.single id) none ∈ cs ∧ n.place (p.child "items") id

/-- The constraint on the members of objects, where the node for the others is given. -/
def Members (additional : Option SchemaId) (cs : List Constraint) : Prop :=
  ∃ named patterns, .properties named patterns additional ∈ cs ∧ n.Named v p named ∧ n.Patterns v p patterns

/-- The constraint on the members of objects, unless it asks for nothing. -/
def Properties (cs : List Constraint) : Prop :=
  (v.get? "properties").isSome = true ∨ (v.get? "patternProperties").isSome = true ∨
      (∃ w, v.get? "additionalProperties" = some w ∧ w.asBool? ≠ some true) →
    ∃ additional, n.Members v p additional cs ∧ n.Additional v p "additionalProperties" additional

/-- The constraints that combine schemas. -/
structure Combinations (cs : List Constraint) : Prop where
  list : ∀ {keyword constraint w}, (keyword, constraint) ∈ Keyword.combinations → v.get? keyword = some w →
    w.isArray = true ∧ w.elements ≠ [] ∧ ∃ ids, constraint ids ∈ cs ∧ n.Elements (p.child keyword) w ids
  not : ∀ {w}, v.get? "not" = some w → ∃ id, .not id ∈ cs ∧ n.place (p.child "not") id

variable {n v p} {cs cs' : List Constraint}

theorem Items.mono (h : n.Items v p cs) (hcs : cs ⊆ cs') : n.Items v p cs' := by
  intro w hw
  rcases h w hw with ⟨harray, hne, ids, additional, hc, hids, ha⟩ | ⟨hobject, id, hc, hid⟩
  · exact .inl ⟨harray, hne, ids, additional, hcs hc, hids, ha⟩
  · exact .inr ⟨hobject, id, hcs hc, hid⟩

theorem Properties.mono (h : n.Properties v p cs) (hcs : cs ⊆ cs') : n.Properties v p cs' := by
  intro hw
  obtain ⟨additional, ⟨named, patterns, hc, hnamed, hpatterns⟩, ha⟩ := h hw
  exact ⟨additional, ⟨named, patterns, hcs hc, hnamed, hpatterns⟩, ha⟩

theorem Combinations.mono (h : n.Combinations v p cs) (hcs : cs ⊆ cs') : n.Combinations v p cs' := by
  refine ⟨fun hk hw => ?_, fun hw => ?_⟩
  · obtain ⟨harray, hne, ids, hc, hids⟩ := h.list hk hw
    exact ⟨harray, hne, ids, hcs hc, hids⟩
  · obtain ⟨id, hc, hid⟩ := h.not hw
    exact ⟨id, hcs hc, hid⟩

end Nodes

/-- Every keyword of a schema document has left its constraint in a node, with all its entries. The exceptions are those
that ask for nothing: `uniqueItems` if it is `false`, `format` if the format is unknown, `additionalProperties` if it is
`true` and stands alone, `additionalItems` without a tuple of `items`, and a flag without its bound. -/
structure Complete (n : Nodes) (v : Value) (p : Pointer) (node : SchemaNode) : Prop where
  type : ∀ {w}, v.get? "type" = some w → ∃ kinds, .type kinds ∈ node.constraints ∧ kinds ≠ [] ∧
    kinds.map (fun t => some t.name) = w.listed.map Value.asString?
  number : ∀ {keyword constraint w}, (keyword, constraint) ∈ Keyword.numbers v → v.get? keyword = some w →
    ∃ x, w.asDouble? = some x ∧ constraint x ∈ node.constraints
  count : ∀ {keyword constraint w}, (keyword, constraint) ∈ Keyword.counts → v.get? keyword = some w →
    ∃ m, Keyword.asCount? w = some m ∧ constraint m ∈ node.constraints
  dateTime : ∀ {keyword constraint w}, (keyword, constraint) ∈ Keyword.dateTimes v → v.get? keyword = some w →
    ∃ text t, w.asString? = some text ∧ DateTime.parseZoned? text = some t ∧ constraint t ∈ node.constraints
  flag : ∀ {keyword w}, keyword ∈ Keyword.flags → v.get? keyword = some w → ∃ b, w.asBool? = some b
  pattern : ∀ {w}, v.get? "pattern" = some w →
    ∃ text regex, w.asString? = some text ∧ Regex.ofText? text = some regex ∧ .pattern regex ∈ node.constraints
  format : ∀ {w}, v.get? "format" = some w →
    ∃ text, w.asString? = some text ∧ ∀ f, Format.ofName? text = some f → .format f ∈ node.constraints
  uniqueItems : ∀ {w}, v.get? "uniqueItems" = some w →
    ∃ b, w.asBool? = some b ∧ (b = true → .uniqueItems ∈ node.constraints)
  items : n.Items v p node.constraints
  properties : n.Properties v p node.constraints
  required : ∀ {w}, v.get? "required" = some w →
    w.isArray = true ∧ ∃ names, .required names ∈ node.constraints ∧ names.map some = w.elements.map Value.asString?
  enum : ∀ {w}, v.get? "enum" = some w → w.isArray = true ∧ .enum w.elements ∈ node.constraints
  combinations : n.Combinations v p node.constraints
  default : node.default? = v.get? "default"
  title : ∀ {w}, v.get? "title" = some w → ∃ text, w.asString? = some text ∧ node.title = some text
  description : ∀ {w}, v.get? "description" = some w → ∃ text, w.asString? = some text ∧ node.description = some text

/-! ### Acceptance goes down -/

namespace Vocabulary

/-- The meta-schema accepts a schema document at some depth. -/
def Admits (maxDepth : Nat) (v : Value) : Prop := ∃ depth, Accepts maxDepth depth schema v

variable {maxDepth depth : Nat} {v w : Value} {p q : Pointer}

/-- A schema in an accepted schema document is accepted deeper down. -/
theorem Accepts.subschema (h : Accepts maxDepth depth Vocabulary.schema v) (hs : Subschema v p w q) :
    ∃ deeper, depth < deeper ∧ Accepts maxDepth deeper Vocabulary.schema w := by
  have hrest : ∀ {keyword}, (keyword, Vocabulary.booleanOrSchema) ∈ keywords → v.get? keyword = some w →
      w.isObject = true → ∃ deeper, depth < deeper ∧ Accepts maxDepth deeper Vocabulary.schema w := by
    intro keyword hk hw hobject
    rcases (h.keyword hk hw).booleanOrSchema with ⟨b, hb⟩ | hw
    · exact absurd hb (by simp [Value.asBool?_of_isObject hobject])
    · exact ⟨depth + 2, by omega, hw⟩
  cases hs with
  | not hw => exact ⟨depth + 1, by omega, h.keyword (by simp [keywords]) hw⟩
  | items hw harray =>
    have hitems : Accepts maxDepth (depth + 1) Vocabulary.itemsKeyword w := h.keyword (by simp [keywords]) hw
    rcases hitems.itemsKeyword with hw | hw
    · exact ⟨depth + 2, by omega, hw⟩
    · exact absurd hw.schemaArray.1 (by simp [harray])
  | additionalItems _ _ hw hobject => exact hrest (by simp [keywords]) hw hobject
  | additionalProperties hw hobject => exact hrest (by simp [keywords]) hw hobject
  | @element keyword u element index hk hu hm =>
    have hm := List.fst_mem_of_mem_zipIdx hm
    simp only [List.mem_cons, List.not_mem_nil, or_false] at hk
    rcases hk with rfl | hk
    · have hitems : Accepts maxDepth (depth + 1) Vocabulary.itemsKeyword u := h.keyword (by simp [keywords]) hu
      rcases hitems.itemsKeyword with hu | hu
      · have harray := Value.isArray_of_mem_elements hm
        exact absurd (Value.isArray_eq_false_of_isObject hu.isObject) (by simp [harray])
      · exact ⟨depth + 3, by omega, hu.schemaArray.2.2 _ hm⟩
    · have hlist : Accepts maxDepth (depth + 1) Vocabulary.schemaArray u := by
        rcases hk with rfl | rfl | rfl <;> exact h.keyword (by simp [keywords]) hu
      exact ⟨depth + 2, by omega, hlist.schemaArray.2.2 _ hm⟩
  | @member keyword name u member hk hu hm =>
    have hmap : Accepts maxDepth (depth + 1) Vocabulary.schemaMap u := by
      simp only [List.mem_cons, List.not_mem_nil, or_false] at hk
      rcases hk with rfl | rfl <;> exact h.keyword (by simp [keywords]) hu
    exact ⟨depth + 2, by omega, hmap.schemaMap.2 _ hm⟩

theorem Admits.keyword {id : SchemaId} {key : String} (h : Admits maxDepth v) (hk : (key, id) ∈ keywords)
    (hw : v.get? key = some w) : ∃ depth, Accepts maxDepth depth id w :=
  have ⟨depth, h⟩ := h
  ⟨depth + 1, h.keyword hk hw⟩

end Vocabulary

/-! ### Keywords by themselves -/

theorem map_filterMap {α β γ : Type} {f : α → Option β} {g : β → γ} {k : α → γ} {l : List α}
    (h : ∀ a ∈ l, ∃ b, f a = some b ∧ g b = k a) : (l.filterMap f).map g = l.map k := by
  induction l with
  | nil => rfl
  | cons a l ih =>
    obtain ⟨b, hb, hg⟩ := h a List.mem_cons_self
    rw [List.filterMap_cons_some hb, List.map_cons, List.map_cons, hg, ih fun a ha => h a (List.mem_cons_of_mem _ ha)]

namespace Vocabulary

variable {maxDepth depth : Nat} {v w : Value} {keyword : String}

/-- The names that an accepted `type` lists are read one by one. -/
theorem Accepts.typeNames (h : Accepts maxDepth depth Vocabulary.typeKeyword w) :
    (Keyword.typeNames w).map (fun t => some t.name) = w.listed.map Value.asString? ∧ w.listed ≠ [] := by
  rcases h.typeKeyword with ⟨t, ht⟩ | ⟨harray, hne, hnames⟩
  · have hn : w.node = .string t.name := Value.asString?_eq_some_iff.1 ht
    rw [Value.listed, if_neg (by simp [Value.isArray_eq_false_of_asString? ht]), Keyword.typeNames, hn]
    simp [TypeName.ofName?_name, ht]
  · have hn : Keyword.typeNames w = w.elements.filterMap fun e => e.asString?.bind TypeName.ofName? := by
      unfold Value.isArray at harray
      unfold Keyword.typeNames
      cases hn : w.node <;> simp [hn] at harray ⊢
    rw [Value.listed, if_pos harray, hn]
    refine ⟨map_filterMap fun e he => ?_, hne⟩
    obtain ⟨t, ht⟩ := hnames e he
    exact ⟨t, by rw [ht, Option.bind_some, TypeName.ofName?_name], ht.symm⟩

namespace Admits

theorem string (ha : Admits maxDepth v) (hk : (keyword, Vocabulary.string) ∈ keywords)
    (hw : v.get? keyword = some w) : ∃ text, w.asString? = some text ∧ Keyword.string? v keyword = some text := by
  obtain ⟨depth, haccepts⟩ := ha.keyword hk hw
  obtain ⟨text, htext⟩ := haccepts.string
  exact ⟨text, htext, by rw [Keyword.string?, hw, Option.bind_some, htext]⟩

theorem boolean (ha : Admits maxDepth v) (hk : (keyword, Vocabulary.boolean) ∈ keywords)
    (hw : v.get? keyword = some w) : ∃ b, w.asBool? = some b := by
  obtain ⟨depth, hw⟩ := ha.keyword hk hw
  exact hw.boolean

theorem type (ha : Admits maxDepth v) (hw : v.get? "type" = some w) : ∃ kinds, .type kinds ∈ Keyword.type v ∧
    kinds ≠ [] ∧ kinds.map (fun t => some t.name) = w.listed.map Value.asString? := by
  obtain ⟨depth, hw'⟩ : ∃ depth, Accepts maxDepth depth typeKeyword w := ha.keyword (by simp [keywords]) hw
  obtain ⟨hnames, hlisted⟩ := hw'.typeNames
  refine ⟨Keyword.typeNames w, by simp [Keyword.type, hw], fun hnil => hlisted ?_, hnames⟩
  rw [hnil] at hnames
  exact List.map_eq_nil_iff.mp hnames.symm

theorem numbers {constraint : Double → Constraint} (ha : Admits maxDepth v)
    (hk : (keyword, constraint) ∈ Keyword.numbers v) (hw : v.get? keyword = some w) :
    ∃ x, w.asDouble? = some x ∧ constraint x ∈ Keyword.numeric v := by
  have hx : ∃ x, w.asDouble? = some x := by
    have hid : (keyword, number) ∈ keywords ∨ (keyword, positiveNumber) ∈ keywords := by
      simp only [Keyword.numbers, List.mem_cons, List.not_mem_nil, or_false, Prod.mk.injEq] at hk
      rcases hk with ⟨rfl, -⟩ | ⟨rfl, -⟩ | ⟨rfl, -⟩ <;> simp [keywords]
    rcases hid with hid | hid
    · obtain ⟨depth, hw⟩ := ha.keyword hid hw
      exact hw.number
    · obtain ⟨depth, hw⟩ := ha.keyword hid hw
      exact hw.positiveNumber
  obtain ⟨x, hx⟩ := hx
  refine ⟨x, hx, ?_⟩
  simp only [Keyword.numbers, List.mem_cons, List.not_mem_nil, or_false, Prod.mk.injEq] at hk
  rcases hk with ⟨rfl, rfl⟩ | ⟨rfl, rfl⟩ | ⟨rfl, rfl⟩ <;> simp [Keyword.numeric, Keyword.number?, hw, hx]

theorem counts {constraint : Nat → Constraint} (ha : Admits maxDepth v) (hk : (keyword, constraint) ∈ Keyword.counts)
    (hw : v.get? keyword = some w) : ∃ m, Keyword.asCount? w = some m ∧
      constraint m ∈ Keyword.stringLengths v ++ Keyword.arraySizes v ++ Keyword.objectSizes v := by
  simp only [Keyword.counts, List.mem_cons, List.not_mem_nil, or_false, Prod.mk.injEq] at hk
  obtain ⟨depth, hw'⟩ : ∃ depth, Accepts maxDepth depth count w := by
    refine ha.keyword ?_ hw
    rcases hk with ⟨rfl, -⟩ | ⟨rfl, -⟩ | ⟨rfl, -⟩ | ⟨rfl, -⟩ | ⟨rfl, -⟩ | ⟨rfl, -⟩ <;> simp [keywords]
  obtain ⟨m, hm⟩ := hw'.count
  refine ⟨m, hm, ?_⟩
  rcases hk with ⟨rfl, rfl⟩ | ⟨rfl, rfl⟩ | ⟨rfl, rfl⟩ | ⟨rfl, rfl⟩ | ⟨rfl, rfl⟩ | ⟨rfl, rfl⟩ <;>
    simp [Keyword.stringLengths, Keyword.arraySizes, Keyword.objectSizes, Keyword.count?, hw, hm]

theorem dateTimes {constraint : DateTime → Constraint} (ha : Admits maxDepth v)
    (hk : (keyword, constraint) ∈ Keyword.dateTimes v) (hw : v.get? keyword = some w) :
    ∃ text t, w.asString? = some text ∧ DateTime.parseZoned? text = some t ∧
      constraint t ∈ Keyword.stringForms v := by
  simp only [Keyword.dateTimes, List.mem_cons, List.not_mem_nil, or_false, Prod.mk.injEq] at hk
  obtain ⟨depth, hw'⟩ : ∃ depth, Accepts maxDepth depth dateTime w := by
    refine ha.keyword ?_ hw
    rcases hk with ⟨rfl, -⟩ | ⟨rfl, -⟩ <;> simp [keywords]
  obtain ⟨text, t, htext, ht⟩ := hw'.dateTime
  refine ⟨text, t, htext, ht, ?_⟩
  rcases hk with ⟨rfl, rfl⟩ | ⟨rfl, rfl⟩ <;>
    simp [Keyword.stringForms, Keyword.dateTime?, Keyword.string?, hw, htext, ht]

theorem flags (ha : Admits maxDepth v) (hk : keyword ∈ Keyword.flags) (hw : v.get? keyword = some w) :
    ∃ b, w.asBool? = some b := by
  refine ha.boolean ?_ hw
  simp only [Keyword.flags, List.mem_cons, List.not_mem_nil, or_false] at hk
  rcases hk with rfl | rfl | rfl | rfl <;> simp [keywords]

theorem format (ha : Admits maxDepth v) (hw : v.get? "format" = some w) :
    ∃ text, w.asString? = some text ∧ ∀ f, Format.ofName? text = some f → .format f ∈ Keyword.stringForms v := by
  obtain ⟨text, htext, hread⟩ := ha.string (by simp [keywords]) hw
  exact ⟨text, htext, fun f hf => by simp [Keyword.stringForms, hread, hf]⟩

theorem uniqueItems (ha : Admits maxDepth v) (hw : v.get? "uniqueItems" = some w) :
    ∃ b, w.asBool? = some b ∧ (b = true → .uniqueItems ∈ Keyword.arraySizes v) := by
  obtain ⟨b, hb⟩ := ha.boolean (by simp [keywords]) hw
  exact ⟨b, hb, fun htrue => by simp [Keyword.arraySizes, Keyword.flag, hw, hb, htrue]⟩

theorem required (ha : Admits maxDepth v) (hw : v.get? "required" = some w) : w.isArray = true ∧
    ∃ names, .required names ∈ Keyword.required v ∧ names.map some = w.elements.map Value.asString? := by
  obtain ⟨depth, hw'⟩ : ∃ depth, Accepts maxDepth depth stringSet w := ha.keyword (by simp [keywords]) hw
  refine ⟨hw'.stringSet.1, w.elements.filterMap Value.asString?, by simp [Keyword.required, hw], ?_⟩
  exact map_filterMap fun e he => by simpa [eq_comm] using hw'.stringSet.2 e he

theorem enum (ha : Admits maxDepth v) (hw : v.get? "enum" = some w) :
    w.isArray = true ∧ .enum w.elements ∈ Keyword.enum v := by
  obtain ⟨depth, hw'⟩ : ∃ depth, Accepts maxDepth depth array w := ha.keyword (by simp [keywords]) hw
  exact ⟨hw'.array, by simp [Keyword.enum, hw]⟩

end Admits

end Vocabulary

/-- The constraints of a node, put together, leave nothing out. -/
theorem Complete.of_parts {n : Nodes} {v : Value} {p : Pointer} {maxDepth : Nat}
    {pattern items properties combinations : List Constraint} (ha : Admits maxDepth v)
    (hpattern : ∀ w, v.get? "pattern" = some w →
      ∃ text regex, w.asString? = some text ∧ Regex.ofText? text = some regex ∧ .pattern regex ∈ pattern)
    (hitems : n.Items v p items) (hproperties : n.Properties v p properties)
    (hcombinations : n.Combinations v p combinations) :
    Complete n v p ⟨Keyword.type v ++ Keyword.numeric v ++ Keyword.stringLengths v ++ pattern ++
      Keyword.stringForms v ++ Keyword.arraySizes v ++ items ++ Keyword.objectSizes v ++ properties ++
      Keyword.required v ++ Keyword.enum v ++ combinations, v.get? "default", Keyword.string? v "title",
      Keyword.string? v "description"⟩ where
  type hw := by
    obtain ⟨kinds, hc, hkinds⟩ := ha.type hw
    exact ⟨kinds, by simp [hc], hkinds⟩
  number hk hw := by
    obtain ⟨x, hx, hc⟩ := ha.numbers hk hw
    exact ⟨x, hx, by simp [hc]⟩
  count hk hw := by
    obtain ⟨m, hm, hc⟩ := ha.counts hk hw
    simp only [List.mem_append] at hc
    exact ⟨m, hm, by rcases hc with (hc | hc) | hc <;> simp [hc]⟩
  dateTime hk hw := by
    obtain ⟨text, t, htext, ht, hc⟩ := ha.dateTimes hk hw
    exact ⟨text, t, htext, ht, by simp [hc]⟩
  flag hk hw := ha.flags hk hw
  pattern hw := by
    obtain ⟨text, regex, htext, hregex, hc⟩ := hpattern _ hw
    exact ⟨text, regex, htext, hregex, by simp [hc]⟩
  format hw := by
    obtain ⟨text, htext, hc⟩ := ha.format hw
    exact ⟨text, htext, fun f hf => by simp [hc f hf]⟩
  uniqueItems hw := by
    obtain ⟨b, hb, hc⟩ := ha.uniqueItems hw
    exact ⟨b, hb, fun htrue => by simp [hc htrue]⟩
  items := hitems.mono fun c hc => by simp [hc]
  properties := hproperties.mono fun c hc => by simp [hc]
  required hw := by
    obtain ⟨harray, names, hc, hnames⟩ := ha.required hw
    exact ⟨harray, names, by simp [hc], hnames⟩
  enum hw := by
    obtain ⟨harray, hc⟩ := ha.enum hw
    exact ⟨harray, by simp [hc]⟩
  combinations := hcombinations.mono fun c hc => by simp [hc]
  default := rfl
  title hw := ha.string (by simp [keywords]) hw
  description hw := ha.string (by simp [keywords]) hw

/-! ### What keywords denote is complete -/

theorem Regex.ofText?_of_read? {limit : Nat} {text : String} {regex : Regex}
    (h : Regex.read? limit text = some regex) : Regex.ofText? text = some regex := by
  unfold Regex.read? at h
  split at h
  · cases h
  · exact h

namespace Nodes

variable {n : Nodes} {v : Value} {p : Pointer} {limit maxDepth : Nat} {k : Compiled}

/-- In an accepted schema document no value is ignored. -/
theorem Rest.additional {keyword : String} {o : Option SchemaId} (ha : Admits maxDepth v)
    (hk : (keyword, booleanOrSchema) ∈ keywords) (h : n.Rest v p keyword o) : n.Additional v p keyword o := by
  cases h with
  | absent hnone => exact .absent hnone
  | forbidden hw hfalse hid => exact .forbidden hw hfalse hid
  | restricted hw hobject hid => exact .restricted hw hobject hid
  | @ignored w hw hfalse hobject =>
    obtain ⟨depth, hshape⟩ := ha.keyword hk hw
    rcases hshape.booleanOrSchema with ⟨b, hb⟩ | hschema
    · cases b with
      | false => exact absurd hb hfalse
      | true => exact .allowed hw hb
    · exact absurd hschema.isObject (by simp [hobject])

theorem NamedOf.complete {named : List (String × SchemaId)} (ha : Admits maxDepth v) (h : n.NamedOf v p named) :
    n.Named v p named := by
  unfold NamedOf Value.membersOf at h
  unfold Named
  cases hw : v.get? "properties" with
  | none => simpa [hw] using h
  | some w =>
    obtain ⟨depth, hmap⟩ : ∃ depth, Accepts maxDepth depth schemaMap w := ha.keyword (by simp [keywords]) hw
    exact ⟨hmap.schemaMap.1, by simpa only [hw] using h⟩

theorem PatternsOf.complete {patterns : List (Regex × SchemaId)} (ha : Admits maxDepth v)
    (h : n.PatternsOf v p limit patterns) : n.Patterns v p patterns := by
  unfold PatternsOf Value.membersOf at h
  unfold Patterns
  cases hw : v.get? "patternProperties" with
  | none => simpa [hw] using h
  | some w =>
    obtain ⟨depth, hmap⟩ : ∃ depth, Accepts maxDepth depth schemaMap w := ha.keyword (by simp [keywords]) hw
    simp only [hw] at h
    exact ⟨hmap.schemaMap.1, h.imp fun _ _ hm => hm.imp_left Regex.ofText?_of_read?⟩

namespace Denotes

variable (ha : Admits maxDepth v) (h : n.Denotes v p limit k)

include ha h

theorem completePattern {w : Value} (hw : v.get? "pattern" = some w) : ∃ text regex, w.asString? = some text ∧
    Regex.ofText? text = some regex ∧ .pattern regex ∈ k.patternConstraints := by
  obtain ⟨depth, hregex⟩ : ∃ depth, Accepts maxDepth depth Vocabulary.regex w := ha.keyword (by simp [keywords]) hw
  obtain ⟨text, -, htext, -⟩ := hregex.regex
  have hread : Keyword.string? v "pattern" = some text := by rw [Keyword.string?, hw, Option.bind_some, htext]
  obtain ⟨regex, hr, hk⟩ : ∃ regex, Regex.read? limit text = some regex ∧ k.pattern = some regex := by
    cases hk : k.pattern with
    | none =>
      cases hk ▸ h.pattern with
      | absent hnone => cases hnone.symm.trans hread
    | some regex =>
      cases hk ▸ h.pattern with
      | present ht hr =>
        cases ht.symm.trans hread
        exact ⟨regex, hr, rfl⟩
  exact ⟨text, regex, htext, Regex.ofText?_of_read? hr, by simp [Compiled.patternConstraints, hk]⟩

theorem completeItems : n.Items v p k.itemsConstraints := by
  intro w hw
  obtain ⟨depth, hshape⟩ : ∃ depth, Accepts maxDepth depth itemsKeyword w := ha.keyword (by simp [keywords]) hw
  have hitems := h.items
  generalize ho : k.items = o at hitems
  cases hitems with
  | absent hnone => cases hnone.symm.trans hw
  | tuple hw' harray hids hrest =>
    cases hw.symm.trans hw'
    rcases hshape.itemsKeyword with hschema | hlist
    · exact absurd harray (by simp [Value.isArray_eq_false_of_isObject hschema.isObject])
    · exact .inl ⟨harray, hlist.schemaArray.2.1, _, _, by simp [Compiled.itemsConstraints, ho], hids,
        hrest.additional ha (by simp [keywords])⟩
  | single hw' harray hid =>
    cases hw.symm.trans hw'
    rcases hshape.itemsKeyword with hschema | hlist
    · exact .inr ⟨hschema.isObject, _, by simp [Compiled.itemsConstraints, ho], hid⟩
    · exact absurd hlist.schemaArray.1 (by simp [harray])

theorem completeProperties : n.Properties v p k.propertiesConstraints := by
  obtain ⟨additional, hrest, hmembers⟩ := h.properties
  have hadditional := hrest.additional ha (by simp [keywords])
  intro hany
  generalize ho : k.properties = o at hmembers
  cases hmembers with
  | nothing hnamed hpatterns hnone =>
    rcases hany with hsome | hsome | ⟨w, hw, hb⟩
    · simp [hnamed] at hsome
    · simp [hpatterns] at hsome
    · -- the keyword is neither absent nor `true`, so there is a node for it
      cases hadditional with
      | absent hw' => cases hw.symm.trans hw'
      | allowed hw' hb' =>
        cases hw.symm.trans hw'
        exact absurd hb' hb
      | forbidden | restricted => cases hnone
  | members hnamed hpatterns =>
    refine ⟨additional, ⟨_, _, ?_, hnamed.complete ha, hpatterns.complete ha⟩, hadditional⟩
    rw [Compiled.propertiesConstraints, ho]
    exact List.mem_singleton_self _

theorem completeCombinations : n.Combinations v p k.combinations := by
  have hsequence : ∀ {keyword : String} {o : Option (List SchemaId)} {w : Value}, n.Sequence v p keyword o →
      v.get? keyword = some w → ∃ ids, o = some ids ∧ n.Elements (p.child keyword) w ids := by
    intro keyword o w ho hw
    cases ho with
    | absent hnone => cases hnone.symm.trans hw
    | present hw' hids =>
      cases hw.symm.trans hw'
      exact ⟨_, rfl, hids⟩
  refine ⟨fun {keyword constraint w} hk hw => ?_, fun {w} hw => ?_⟩
  · simp only [Keyword.combinations, List.mem_cons, List.not_mem_nil, or_false, Prod.mk.injEq] at hk
    obtain ⟨depth, hlist⟩ : ∃ depth, Accepts maxDepth depth schemaArray w := by
      refine ha.keyword ?_ hw
      rcases hk with ⟨rfl, rfl⟩ | ⟨rfl, rfl⟩ | ⟨rfl, rfl⟩ <;> simp [keywords]
    refine ⟨hlist.schemaArray.1, hlist.schemaArray.2.1, ?_⟩
    rcases hk with ⟨rfl, rfl⟩ | ⟨rfl, rfl⟩ | ⟨rfl, rfl⟩
    · obtain ⟨ids, ho, hids⟩ := hsequence h.allOf hw
      exact ⟨ids, by simp [Compiled.combinations, ho], hids⟩
    · obtain ⟨ids, ho, hids⟩ := hsequence h.anyOf hw
      exact ⟨ids, by simp [Compiled.combinations, ho], hids⟩
    · obtain ⟨ids, ho, hids⟩ := hsequence h.oneOf hw
      exact ⟨ids, by simp [Compiled.combinations, ho], hids⟩
  · have hnot := h.not
    generalize ho : k.not = o at hnot
    cases hnot with
    | absent hnone => cases hnone.symm.trans hw
    | present _ hid => exact ⟨_, by simp [Compiled.combinations, ho], hid⟩

/-- **What the keywords of an accepted schema document denote leaves none of them out.** -/
theorem complete : Complete n v p (k.node v) :=
  .of_parts ha (fun _ hw => completePattern ha h hw) (completeItems ha h) (completeProperties ha h)
    (completeCombinations ha h)

end Denotes

end Nodes

end JsonSchema
