import JsonSchema.Proofs.Compile.Logic
import JsonSchema.Proofs.Compile.Meaning
import JsonSchema.Proofs.Vocabulary

/-!
What a schema document leaves in a node, told without running anything. Keywords that hold schemas or regular
expressions leave regular expressions and the nodes of the schemas (`Compiled`), the others what is read off them, and
the node is put together from both (`Compiled.node`). Which nodes these are is a relation between places and nodes
(`Nodes.Denotes`), so it does not matter when a place was given its node, nor whether it was given more than one.

Every keyword leaves what it denotes (`SchemaSource.runs_node`), whether the meta-schema accepts it or not.
-/

namespace JsonSchema

/-! ### The nodes of places -/

/-- The nodes that the places of a document have, and the node that accepts nothing. -/
structure Nodes where
  place : Pointer → SchemaId → Prop
  never : SchemaId → Prop

/-- More places have nodes. -/
instance : LE Nodes := ⟨fun n n' => (∀ {q id}, n.place q id → n'.place q id) ∧ ∀ {id}, n.never id → n'.never id⟩

/-- The members of the object that a keyword holds. -/
def Value.membersOf (v : Value) (keyword : String) : List (String × Value) :=
  match v.get? keyword with
  | none => []
  | some w => w.members

/-- The schema document holds the text of a regular expression. -/
inductive Value.HasRegex (v : Value) (text : String) : Prop
  | pattern : Keyword.string? v "pattern" = some text → HasRegex v text
  | name {w : Value} : (text, w) ∈ v.membersOf "patternProperties" → HasRegex v text

/-- The regular expression of a text that is not too long. -/
def Regex.read? (limit : Nat) (text : String) : Option Regex :=
  if limit < text.utf8ByteSize then none else Regex.ofText? text

/-- What the keywords leave that are not read off their values alone. -/
structure Compiled where
  pattern : Option Regex
  items : Option (ItemSchemas × Option SchemaId)
  properties : Option (List (String × SchemaId) × List (Regex × SchemaId) × Option SchemaId)
  allOf : Option (List SchemaId)
  anyOf : Option (List SchemaId)
  oneOf : Option (List SchemaId)
  not : Option SchemaId

namespace Compiled

/-- The constraint of a pattern. -/
def patternConstraints (k : Compiled) : List Constraint := (k.pattern.map .pattern).toList

/-- The constraint on the elements of arrays. -/
def itemsConstraints (k : Compiled) : List Constraint := (k.items.map fun i => .items i.1 i.2).toList

/-- The constraint on the members of objects. -/
def propertiesConstraints (k : Compiled) : List Constraint :=
  (k.properties.map fun m => .properties m.1 m.2.1 m.2.2).toList

/-- The constraints that combine schemas. -/
def combinations (k : Compiled) : List Constraint :=
  (k.allOf.map .allOf).toList ++ (k.anyOf.map .anyOf).toList ++ (k.oneOf.map .oneOf).toList ++ (k.not.map .not).toList

/-- The node of a schema document. -/
def node (k : Compiled) (v : Value) : SchemaNode :=
  ⟨Keyword.type v ++ Keyword.numeric v ++ Keyword.stringLengths v ++ k.patternConstraints ++ Keyword.stringForms v ++
    Keyword.arraySizes v ++ k.itemsConstraints ++ Keyword.objectSizes v ++ k.propertiesConstraints ++
    Keyword.required v ++ Keyword.enum v ++ k.combinations,
    v.get? "default", Keyword.string? v "title", Keyword.string? v "description"⟩

end Compiled

namespace Nodes

variable (n : Nodes) (v : Value) (p : Pointer)

/-- The nodes of the elements of an array. -/
def Elements (w : Value) (ids : List SchemaId) : Prop :=
  List.Forall₂ (fun m id => n.place (p.childIndex m.2) id) w.elements.zipIdx ids

/-- The regular expression of a pattern. -/
inductive PatternOf (limit : Nat) (v : Value) : Option Regex → Prop
  | absent : Keyword.string? v "pattern" = none → PatternOf limit v none
  | present {text : String} {regex : Regex} : Keyword.string? v "pattern" = some text →
      Regex.read? limit text = some regex → PatternOf limit v (some regex)

/-- The node of the schema that a keyword holds. -/
inductive Single (keyword : String) : Option SchemaId → Prop
  | absent : v.get? keyword = none → Single keyword none
  | present {w : Value} {id : SchemaId} : v.get? keyword = some w → n.place (p.child keyword) id →
      Single keyword (some id)

/-- The nodes of the schemas in the array that a keyword holds. -/
inductive Sequence (keyword : String) : Option (List SchemaId) → Prop
  | absent : v.get? keyword = none → Sequence keyword none
  | present {w : Value} {ids : List SchemaId} : v.get? keyword = some w → n.Elements (p.child keyword) w ids →
      Sequence keyword (some ids)

/-- The node for the parts that no other keyword covers: `false` forbids them, and what is no schema is ignored. -/
inductive Rest (keyword : String) : Option SchemaId → Prop
  | absent : v.get? keyword = none → Rest keyword none
  | forbidden {w : Value} {id : SchemaId} : v.get? keyword = some w → w.asBool? = some false → n.never id →
      Rest keyword (some id)
  | restricted {w : Value} {id : SchemaId} : v.get? keyword = some w → w.isObject = true →
      n.place (p.child keyword) id → Rest keyword (some id)
  | ignored {w : Value} : v.get? keyword = some w → w.asBool? ≠ some false → w.isObject = false → Rest keyword none

/-- The nodes for the elements of arrays. -/
inductive ItemsOf : Option (ItemSchemas × Option SchemaId) → Prop
  | absent : v.get? "items" = none → ItemsOf none
  | tuple {w : Value} {ids : List SchemaId} {additional : Option SchemaId} : v.get? "items" = some w →
      w.isArray = true → n.Elements (p.child "items") w ids → n.Rest v p "additionalItems" additional →
      ItemsOf (some (.tuple ids, additional))
  | single {w : Value} {id : SchemaId} : v.get? "items" = some w → w.isArray = false → n.place (p.child "items") id →
      ItemsOf (some (.single id, none))

/-- The nodes of the members with a given name. -/
def NamedOf (named : List (String × SchemaId)) : Prop :=
  List.Forall₂ (fun m entry => entry.1 = m.1 ∧ n.place ((p.child "properties").child m.1) entry.2)
    (v.membersOf "properties") named

/-- The nodes of the members whose names match a pattern. -/
def PatternsOf (limit : Nat) (patterns : List (Regex × SchemaId)) : Prop :=
  List.Forall₂ (fun m entry => Regex.read? limit m.1 = some entry.1 ∧
    n.place ((p.child "patternProperties").child m.1) entry.2) (v.membersOf "patternProperties") patterns

/-- The nodes for the members of objects, where the one for the others is given, unless nothing is asked of them. -/
inductive MembersOf (limit : Nat) (additional : Option SchemaId) :
    Option (List (String × SchemaId) × List (Regex × SchemaId) × Option SchemaId) → Prop
  | nothing : v.get? "properties" = none → v.get? "patternProperties" = none → additional = none →
      MembersOf limit additional none
  | members {named : List (String × SchemaId)} {patterns : List (Regex × SchemaId)} : n.NamedOf v p named →
      n.PatternsOf v p limit patterns →
      (v.get? "properties").isSome = true ∨ (v.get? "patternProperties").isSome = true ∨ additional.isSome = true →
      MembersOf limit additional (some (named, patterns, additional))

/-- The nodes for the members of objects. -/
def PropertiesOf (limit : Nat)
    (o : Option (List (String × SchemaId) × List (Regex × SchemaId) × Option SchemaId)) : Prop :=
  ∃ additional, n.Rest v p "additionalProperties" additional ∧ n.MembersOf v p limit additional o

/-- What the keywords of a schema document denote. -/
structure Denotes (limit : Nat) (k : Compiled) : Prop where
  pattern : PatternOf limit v k.pattern
  items : n.ItemsOf v p k.items
  properties : n.PropertiesOf v p limit k.properties
  allOf : n.Sequence v p "allOf" k.allOf
  anyOf : n.Sequence v p "anyOf" k.anyOf
  oneOf : n.Sequence v p "oneOf" k.oneOf
  not : n.Single v p "not" k.not

variable {n v p} {n' : Nodes} {keyword : String} {limit : Nat} {k : Compiled}

theorem Elements.mono {w : Value} {ids : List SchemaId} (h : n.Elements p w ids) (hn : n ≤ n') :
    n'.Elements p w ids := List.Forall₂.imp (fun _ _ hid => hn.1 hid) h

theorem Single.mono {o : Option SchemaId} (h : n.Single v p keyword o) (hn : n ≤ n') : n'.Single v p keyword o := by
  cases h with
  | absent hw => exact .absent hw
  | present hw hid => exact .present hw (hn.1 hid)

theorem Sequence.mono {o : Option (List SchemaId)} (h : n.Sequence v p keyword o) (hn : n ≤ n') :
    n'.Sequence v p keyword o := by
  cases h with
  | absent hw => exact .absent hw
  | present hw hids => exact .present hw (hids.mono hn)

theorem Rest.mono {o : Option SchemaId} (h : n.Rest v p keyword o) (hn : n ≤ n') : n'.Rest v p keyword o := by
  cases h with
  | absent hw => exact .absent hw
  | forbidden hw hfalse hid => exact .forbidden hw hfalse (hn.2 hid)
  | restricted hw hobject hid => exact .restricted hw hobject (hn.1 hid)
  | ignored hw hb hobject => exact .ignored hw hb hobject

theorem ItemsOf.mono {o : Option (ItemSchemas × Option SchemaId)} (h : n.ItemsOf v p o) (hn : n ≤ n') :
    n'.ItemsOf v p o := by
  cases h with
  | absent hw => exact .absent hw
  | tuple hw harray hids hrest => exact .tuple hw harray (hids.mono hn) (hrest.mono hn)
  | single hw harray hid => exact .single hw harray (hn.1 hid)

theorem NamedOf.mono {named : List (String × SchemaId)} (h : n.NamedOf v p named) (hn : n ≤ n') :
    n'.NamedOf v p named := List.Forall₂.imp (fun _ _ hm => hm.imp_right hn.1) h

theorem PatternsOf.mono {patterns : List (Regex × SchemaId)} (h : n.PatternsOf v p limit patterns) (hn : n ≤ n') :
    n'.PatternsOf v p limit patterns := List.Forall₂.imp (fun _ _ hm => hm.imp_right hn.1) h

theorem MembersOf.mono {additional : Option SchemaId}
    {o : Option (List (String × SchemaId) × List (Regex × SchemaId) × Option SchemaId)}
    (h : n.MembersOf v p limit additional o) (hn : n ≤ n') : n'.MembersOf v p limit additional o := by
  cases h with
  | nothing hnamed hpatterns hnone => exact .nothing hnamed hpatterns hnone
  | members hnamed hpatterns hsome => exact .members (hnamed.mono hn) (hpatterns.mono hn) hsome

theorem PropertiesOf.mono {o : Option (List (String × SchemaId) × List (Regex × SchemaId) × Option SchemaId)}
    (h : n.PropertiesOf v p limit o) (hn : n ≤ n') : n'.PropertiesOf v p limit o := by
  obtain ⟨additional, hrest, hmembers⟩ := h
  exact ⟨additional, hrest.mono hn, hmembers.mono hn⟩

theorem Denotes.mono (h : n.Denotes v p limit k) (hn : n ≤ n') : n'.Denotes v p limit k :=
  ⟨h.pattern, h.items.mono hn, h.properties.mono hn, h.allOf.mono hn, h.anyOf.mono hn, h.oneOf.mono hn, h.not.mono hn⟩

/-! ### What is denoted -/

theorem exists_of_forall₂ {α β : Type} {R : α → β → Prop} {l : List α} {m : List β} (h : List.Forall₂ R l m) {a : α}
    (ha : a ∈ l) : ∃ b ∈ m, R a b := by
  induction h with
  | nil => cases ha
  | cons hab _ ih =>
    rcases List.mem_cons.mp ha with rfl | ha
    · exact ⟨_, List.mem_cons_self, hab⟩
    · obtain ⟨b, hb, hR⟩ := ih ha
      exact ⟨b, List.mem_cons_of_mem _ hb, hR⟩

theorem Single.place {o : Option SchemaId} (h : n.Single v p keyword o) {w : Value} (hw : v.get? keyword = some w) :
    ∃ id, n.place (p.child keyword) id := by
  cases h with
  | absent hnone => cases hnone.symm.trans hw
  | present _ hid => exact ⟨_, hid⟩

theorem Elements.place {w element : Value} {ids : List SchemaId} {index : Nat} (h : n.Elements p w ids)
    (hm : (element, index) ∈ w.elements.zipIdx) : ∃ id, n.place (p.childIndex index) id := by
  obtain ⟨id, -, hid⟩ := exists_of_forall₂ h hm
  exact ⟨id, hid⟩

theorem Sequence.place {o : Option (List SchemaId)} (h : n.Sequence v p keyword o) {w element : Value} {index : Nat}
    (hw : v.get? keyword = some w) (hm : (element, index) ∈ w.elements.zipIdx) :
    ∃ id, n.place ((p.child keyword).childIndex index) id := by
  cases h with
  | absent hnone => cases hnone.symm.trans hw
  | present hw' hids =>
    cases hw.symm.trans hw'
    exact hids.place hm

theorem Rest.place {o : Option SchemaId} (h : n.Rest v p keyword o) {w : Value} (hw : v.get? keyword = some w)
    (hobject : w.isObject = true) : ∃ id, n.place (p.child keyword) id := by
  have hbool := Value.asBool?_of_isObject hobject
  cases h with
  | absent hnone => cases hnone.symm.trans hw
  | forbidden hw' hfalse =>
    cases hw.symm.trans hw'
    cases hbool.symm.trans hfalse
  | restricted _ _ hid => exact ⟨_, hid⟩
  | ignored hw' _ hnot =>
    cases hw.symm.trans hw'
    cases hobject.symm.trans hnot

/-- Every member has a node. -/
theorem MembersOf.place {additional : Option SchemaId}
    {o : Option (List (String × SchemaId) × List (Regex × SchemaId) × Option SchemaId)}
    (h : n.MembersOf v p limit additional o) {name : String} {member : Value}
    (hk : keyword ∈ ["properties", "patternProperties"]) (hm : (name, member) ∈ v.membersOf keyword) :
    ∃ id, n.place ((p.child keyword).child name) id := by
  simp only [List.mem_cons, List.not_mem_nil, or_false] at hk
  cases h with
  | nothing hnamed hpatterns =>
    have hnone : v.get? keyword = none := by rcases hk with rfl | rfl <;> assumption
    rw [Value.membersOf, hnone] at hm
    cases hm
  | members hnamed hpatterns =>
    rcases hk with rfl | rfl
    · obtain ⟨entry, -, -, hid⟩ := exists_of_forall₂ hnamed hm
      exact ⟨_, hid⟩
    · obtain ⟨entry, -, -, hid⟩ := exists_of_forall₂ hpatterns hm
      exact ⟨_, hid⟩

/-- Every schema that a keyword holds has a node. -/
theorem Denotes.place (h : n.Denotes v p limit k) {w : Value} {q : Pointer} (hs : Subschema v p w q) :
    ∃ id, n.place q id := by
  obtain ⟨pattern, items, properties, all, any, one, not⟩ := k
  cases hs with
  | not hw => exact h.not.place hw
  | items hw harray =>
    cases h.items with
    | absent hnone => cases hnone.symm.trans hw
    | tuple hw' harray' =>
      cases hw.symm.trans hw'
      cases harray.symm.trans harray'
    | single _ _ hid => exact ⟨_, hid⟩
  | additionalItems hw harray ha hobject =>
    cases h.items with
    | absent hnone => cases hnone.symm.trans hw
    | tuple _ _ _ hrest => exact hrest.place ha hobject
    | single hw' harray' =>
      cases hw.symm.trans hw'
      cases harray.symm.trans harray'
  | additionalProperties ha hobject =>
    obtain ⟨_, hrest, -⟩ := h.properties
    exact hrest.place ha hobject
  | @element keyword u element index hk hu hm =>
    simp only [List.mem_cons, List.not_mem_nil, or_false] at hk
    rcases hk with rfl | rfl | rfl | rfl
    · cases h.items with
      | absent hnone => cases hnone.symm.trans hu
      | tuple hw' _ hids =>
        cases hu.symm.trans hw'
        exact hids.place hm
      | single hw' harray =>
        cases hu.symm.trans hw'
        exact absurd (Value.isArray_of_mem_elements (List.fst_mem_of_mem_zipIdx hm)) (by simp [harray])
    · exact h.allOf.place hu hm
    · exact h.anyOf.place hu hm
    · exact h.oneOf.place hu hm
  | @member keyword name u _ hk hu hm =>
    have hmembers : v.membersOf keyword = u.members := by rw [Value.membersOf, hu]
    obtain ⟨_, -, hproperties⟩ := h.properties
    exact hproperties.place hk (hmembers ▸ hm)

/-- Every regular expression is read. -/
theorem Denotes.regex (h : n.Denotes v p limit k) {text : String} (ht : v.HasRegex text) :
    ∃ regex, Regex.read? limit text = some regex := by
  obtain ⟨pattern, items, properties, all, any, one, not⟩ := k
  cases ht with
  | pattern ht =>
    cases h.pattern with
    | absent hnone => cases hnone.symm.trans ht
    | present ht' hregex =>
      cases ht.symm.trans ht'
      exact ⟨_, hregex⟩
  | name hm =>
    obtain ⟨_, -, hproperties⟩ := h.properties
    cases hproperties with
    | nothing _ hpatterns =>
      rw [Value.membersOf, hpatterns] at hm
      cases hm
    | members _ hpatterns =>
      obtain ⟨entry, -, hregex, -⟩ := exists_of_forall₂ hpatterns hm
      exact ⟨_, hregex⟩

end Nodes

/-! ### Keywords leave what they denote -/

/-- The nodes that the places of a document have in a state. -/
def Compilation.nodes (x : Compilation) (d : Document) : Nodes :=
  ⟨fun q id => (d.location q, id) ∈ x.known, fun id => x.builder.never? = some id⟩

theorem Compilation.Advances.nodes {x x' : Compilation} (h : x.Advances x') (d : Document) : x.nodes d ≤ x'.nodes d :=
  ⟨h.known, h.never⟩

namespace SchemaSource

variable {s : SchemaSource} {I : Compilation → Prop} {F : SchemaError → Prop}

theorem regex_eq_ok_iff {text : String} {place : Pointer} {regex : Regex} :
    s.regex text place = .ok regex ↔ Regex.read? s.maxRegexLength text = some regex := by
  unfold SchemaSource.regex Regex.read?
  split
  · simp
  · cases Regex.ofText? text <;> simp

/-- A regular expression that is refused is named in the error. -/
theorem regex_eq_error {text : String} {place : Pointer} {e : SchemaError} (h : s.regex text place = .error e) :
    ∃ fault, e = .invalidPattern s.document.label place text fault := by
  unfold SchemaSource.regex at h
  split at h
  · cases h
    exact ⟨_, rfl⟩
  · split at h
    · cases h
    · cases h
      exact ⟨_, rfl⟩

section

variable (hregex : ∀ text place e, s.value.HasRegex text → s.regex text place = .error e → F e)

include hregex

theorem runs_pattern : Runs I F s.pattern fun _ cs => ∃ o, cs = (o.map Constraint.pattern).toList ∧
    Nodes.PatternOf s.maxRegexLength s.value o := by
  cases ht : Keyword.string? s.value "pattern" with
  | none =>
    simp only [pattern, ht]
    exact (Runs.pure []).weaken (fun _ _ hcs => ⟨none, hcs, .absent ht⟩) fun _ h => h
  | some text =>
    simp only [pattern, ht]
    refine ((Runs.except _ fun e he => hregex _ _ _ (.pattern ht) he).bind fun regex => .pure _).weaken
      (fun x cs => ?_) fun _ h => h
    rintro ⟨regex, hr, rfl⟩
    exact ⟨some regex, rfl, .present ht (regex_eq_ok_iff.1 hr)⟩

end

section

variable (hchild : ∀ w q, Subschema s.value s.pointer w q →
  Runs I F (s.child w q) fun x id => (x.nodes s.document).place q id)

include hchild

theorem runs_single {keyword : String}
    (h : ∀ w, s.value.get? keyword = some w → Subschema s.value s.pointer w (s.pointer.child keyword)) :
    Runs I F (s.single keyword) fun x o => (x.nodes s.document).Single s.value s.pointer keyword o := by
  cases hw : s.value.get? keyword with
  | none =>
    simp only [single, hw]
    exact (Runs.pure none).weaken (fun _ _ ho => ho ▸ .absent hw) fun hg h => h.mono (hg.nodes _)
  | some w =>
    simp only [single, hw]
    refine ((hchild _ _ (h w hw)).map some).weaken (fun x o => ?_) fun hg h => h.mono (hg.nodes _)
    rintro ⟨id, hid, rfl⟩
    exact .present hw hid

theorem runs_sequence {keyword : String} (h : keyword ∈ ["items", "allOf", "anyOf", "oneOf"]) :
    Runs I F (s.sequence keyword) fun x o => (x.nodes s.document).Sequence s.value s.pointer keyword o := by
  cases hw : s.value.get? keyword with
  | none =>
    simp only [sequence, hw]
    exact (Runs.pure none).weaken (fun _ _ ho => ho ▸ .absent hw) fun hg h => h.mono (hg.nodes _)
  | some w =>
    simp only [sequence, hw]
    refine ((Runs.mapM fun m hm => hchild _ _ (.element h hw hm)).map some).weaken (fun x o => ?_)
      fun hg h => h.mono (hg.nodes _)
    rintro ⟨ids, hids, rfl⟩
    exact .present hw hids

theorem runs_named : Runs I F s.named fun x named => (x.nodes s.document).NamedOf s.value s.pointer named := by
  cases hw : s.value.get? "properties" with
  | none =>
    simp only [named, Nodes.NamedOf, Value.membersOf, hw]
    exact (Runs.pure []).weaken (fun _ _ h => h ▸ .nil) fun _ h => by
      rw [List.forall₂_nil_left_iff.mp h]
      exact .nil
  | some w =>
    simp only [named, Nodes.NamedOf, Value.membersOf, hw]
    refine (Runs.mapM fun m hm => (hchild _ _ (.member (by simp) hw hm)).map (m.1, ·)).weaken (fun x named h => ?_)
      fun hg h => h.imp fun _ _ hm => hm.imp_right (hg.nodes _).1
    refine h.imp fun m entry => ?_
    rintro ⟨id, hid, rfl⟩
    exact ⟨rfl, hid⟩

theorem runs_combinations : Runs I F s.combinations fun x cs => ∃ all any one not,
    cs = (all.map Constraint.allOf).toList ++ (any.map Constraint.anyOf).toList ++ (one.map Constraint.oneOf).toList ++
      (not.map Constraint.not).toList ∧
    (x.nodes s.document).Sequence s.value s.pointer "allOf" all ∧
    (x.nodes s.document).Sequence s.value s.pointer "anyOf" any ∧
    (x.nodes s.document).Sequence s.value s.pointer "oneOf" one ∧
    (x.nodes s.document).Single s.value s.pointer "not" not := by
  refine ((runs_sequence hchild (by simp)).bind fun all => (runs_sequence hchild (by simp)).bind fun any =>
    (runs_sequence hchild (by simp)).bind fun one => (runs_single hchild fun _ hw => .not hw).bind fun not =>
      .pure _).weaken (fun x cs => ?_) ?_
  · rintro ⟨all, hall, any, hany, one, hone, not, hnot, rfl⟩
    exact ⟨all, any, one, not, rfl, hall, hany, hone, hnot⟩
  · rintro x x' cs hg ⟨all, any, one, not, rfl, hall, hany, hone, hnot⟩
    have hn := hg.nodes s.document
    exact ⟨all, any, one, not, rfl, hall.mono hn, hany.mono hn, hone.mono hn, hnot.mono hn⟩

section

variable (hregex : ∀ text place e, s.value.HasRegex text → s.regex text place = .error e → F e)

include hregex

theorem runs_patterns : Runs I F s.patterns fun x patterns =>
    (x.nodes s.document).PatternsOf s.value s.pointer s.maxRegexLength patterns := by
  cases hw : s.value.get? "patternProperties" with
  | none =>
    simp only [patterns, Nodes.PatternsOf, Value.membersOf, hw]
    exact (Runs.pure []).weaken (fun _ _ h => h ▸ .nil) fun _ h => by
      rw [List.forall₂_nil_left_iff.mp h]
      exact .nil
  | some w =>
    have hmembers : s.value.membersOf "patternProperties" = w.members := by rw [Value.membersOf, hw]
    simp only [patterns, Nodes.PatternsOf, hmembers, hw]
    refine (Runs.mapM fun m hm => (Runs.except _ fun e he => hregex _ _ _ (.name (hmembers ▸ hm)) he).bind fun regex =>
      (hchild _ _ (.member (by simp) hw hm)).map (regex, ·)).weaken (fun x patterns h => ?_)
      fun hg h => h.imp fun _ _ hm => hm.imp_right (hg.nodes _).1
    refine h.imp fun m entry => ?_
    rintro ⟨regex, hr, id, hid, rfl⟩
    exact ⟨regex_eq_ok_iff.1 hr, hid⟩

theorem runs_members (additional : Option SchemaId) : Runs I F
    (if (s.value.get? "properties").isSome || (s.value.get? "patternProperties").isSome || additional.isSome then do
      let named ← s.named
      let patterns ← s.patterns
      return [.properties named patterns additional]
    else return []) fun x cs => ∃ o, cs = (o.map fun m => Constraint.properties m.1 m.2.1 m.2.2).toList ∧
      (x.nodes s.document).MembersOf s.value s.pointer s.maxRegexLength additional o := by
  split
  · next hany =>
    refine ((runs_named hchild).bind fun named => (runs_patterns hchild hregex).bind fun patterns =>
      .pure _).weaken (fun x cs => ?_) fun hg ⟨o, hcs, ho⟩ => ⟨o, hcs, ho.mono (hg.nodes _)⟩
    rintro ⟨named, hnamed, patterns, hpatterns, rfl⟩
    exact ⟨_, rfl, .members hnamed hpatterns (by simpa only [Bool.or_eq_true, or_assoc] using hany)⟩
  · next hnone =>
    refine (Runs.pure []).weaken (fun x cs hcs => ⟨none, hcs, ?_⟩) fun hg ⟨o, hcs, ho⟩ => ⟨o, hcs, ho.mono (hg.nodes _)⟩
    simp only [Bool.or_eq_true, not_or, Bool.not_eq_true, Option.isSome_eq_false_iff,
      Option.isNone_iff_eq_none] at hnone
    exact .nothing hnone.1.1 hnone.1.2 hnone.2

end

section

variable (hnever : s.value.Forbids →
  Runs I F (Compilation.building SchemaBuilder.never) fun x id => x.builder.never? = some id)

include hnever

/-- The schema or the prohibition that a keyword holds, where it counts. -/
theorem runs_additional {keyword : String}
    (h : ∀ w, s.value.get? keyword = some w → w.isObject = true →
      Subschema s.value s.pointer w (s.pointer.child keyword))
    (hforbids : (s.value.get? keyword).bind Value.asBool? = some false → s.value.Forbids) :
    Runs I F (s.additional keyword) fun x o => (x.nodes s.document).Rest s.value s.pointer keyword o := by
  have hstable : ∀ {x x' : Compilation} {o : Option SchemaId}, x.Advances x' →
      (x.nodes s.document).Rest s.value s.pointer keyword o → (x'.nodes s.document).Rest s.value s.pointer keyword o :=
    fun hg h => h.mono (hg.nodes _)
  cases hw : s.value.get? keyword with
  | none =>
    simp only [additional, hw]
    exact (Runs.pure none).weaken (fun _ _ ho => ho ▸ .absent hw) hstable
  | some w =>
    simp only [additional, hw]
    by_cases hfalse : w.asBool? = some false
    · simp only [if_pos hfalse]
      refine ((hnever (hforbids (by rw [hw, Option.bind_some, hfalse]))).map some).weaken (fun x o => ?_) hstable
      rintro ⟨id, hid, rfl⟩
      exact .forbidden hw hfalse hid
    · simp only [if_neg hfalse]
      by_cases hobject : w.isObject = true
      · simp only [if_pos hobject]
        refine (runs_single hchild fun w' hw' => ?_).weaken (fun x o ho => ?_) hstable
        · cases hw.symm.trans hw'
          exact h w hw hobject
        · cases ho with
          | absent hnone => cases hw.symm.trans hnone
          | present _ hid => exact .restricted hw hobject hid
      · simp only [if_neg hobject]
        exact (Runs.pure none).weaken (fun _ _ ho => ho ▸ .ignored hw hfalse (by simpa using hobject)) hstable

theorem runs_items : Runs I F s.items fun x cs => ∃ o, cs = (o.map fun i => Constraint.items i.1 i.2).toList ∧
    (x.nodes s.document).ItemsOf s.value s.pointer o := by
  have hstable : ∀ {x x' : Compilation} {cs : List Constraint}, x.Advances x' →
      (∃ o, cs = (o.map fun i => Constraint.items i.1 i.2).toList ∧ (x.nodes s.document).ItemsOf s.value s.pointer o) →
      ∃ o, cs = (o.map fun i => Constraint.items i.1 i.2).toList ∧ (x'.nodes s.document).ItemsOf s.value s.pointer o :=
    fun hg ⟨o, hcs, ho⟩ => ⟨o, hcs, ho.mono (hg.nodes _)⟩
  cases hw : s.value.get? "items" with
  | none =>
    simp only [items, hw]
    exact (Runs.pure []).weaken (fun _ _ hcs => ⟨none, hcs, .absent hw⟩) hstable
  | some w =>
    simp only [items, hw]
    by_cases harray : w.isArray = true
    · simp only [if_pos harray]
      refine ((runs_additional hchild hnever (fun a ha hobject => .additionalItems hw harray ha hobject)
        fun hfalse => .inr ⟨⟨w, hw, harray⟩, hfalse⟩).bind fun additional =>
          (runs_sequence hchild (by simp)).bind fun schemas => .pure _).weaken (fun x cs => ?_) hstable
      rintro ⟨additional, hadditional, schemas, hschemas, rfl⟩
      cases hschemas with
      | absent hnone => cases hw.symm.trans hnone
      | present hw' hids =>
        cases hw.symm.trans hw'
        exact ⟨_, rfl, .tuple hw harray hids hadditional⟩
    · simp only [if_neg harray]
      have hnot : w.isArray = false := by simpa using harray
      refine ((runs_single hchild fun w' hw' => ?_).bind fun schema => .pure _).weaken (fun x cs => ?_) hstable
      · cases hw.symm.trans hw'
        exact .items hw hnot
      · rintro ⟨schema, hsingle, rfl⟩
        cases hsingle with
        | absent hnone => cases hw.symm.trans hnone
        | present _ hid => exact ⟨_, rfl, .single hw hnot hid⟩

section

variable (hregex : ∀ text place e, s.value.HasRegex text → s.regex text place = .error e → F e)

include hregex

theorem runs_properties : Runs I F s.properties fun x cs =>
    ∃ o, cs = (o.map fun m => Constraint.properties m.1 m.2.1 m.2.2).toList ∧
      (x.nodes s.document).PropertiesOf s.value s.pointer s.maxRegexLength o := by
  refine ((runs_additional hchild hnever (fun a ha hobject => .additionalProperties ha hobject) .inl).bind
    (runs_members hchild hregex)).weaken (fun x cs => ?_) fun hg ⟨o, hcs, ho⟩ => ⟨o, hcs, ho.mono (hg.nodes _)⟩
  rintro ⟨additional, hrest, o, rfl, hmembers⟩
  exact ⟨o, rfl, additional, hrest, hmembers⟩

/-- **The keywords of a schema document leave what they denote**, if the schemas in it get nodes. -/
theorem runs_node : Runs I F s.node fun x node => ∃ k : Compiled, node = k.node s.value ∧
    (x.nodes s.document).Denotes s.value s.pointer s.maxRegexLength k := by
  refine (((runs_pattern hregex).bind fun pattern => (runs_items hchild hnever).bind fun items =>
    (runs_properties hchild hnever hregex).bind fun properties =>
      (runs_combinations hchild).bind fun combinations => .pure _).bind fun cs => .pure _).weaken
        (fun x node => ?_) fun hg ⟨k, hk, h⟩ => ⟨k, hk, h.mono (hg.nodes _)⟩
  rintro ⟨cs, ⟨_, ⟨pattern, rfl, hpattern⟩, _, ⟨items, rfl, hitems⟩, _, ⟨properties, rfl, hproperties⟩, _,
    ⟨all, any, one, not, rfl, hall, hany, hone, hnot⟩, rfl⟩, rfl⟩
  exact ⟨⟨pattern, items, properties, all, any, one, not⟩, rfl, hpattern, hitems, hproperties, hall, hany, hone, hnot⟩

end

end

end

end SchemaSource

end JsonSchema
