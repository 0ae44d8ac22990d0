import JsonSchema.Proofs.Compile.Denotation
import JsonSchema.Proofs.Reordered

/-!
Schema documents that differ only in the order of members mean the same. They have the same keywords, which hold the
same schemas at the same places (`Value.Reordered.subschema`) and read the same. So what their keywords denote differs
in the numbers of nodes alone, and if the schemas with these numbers say the same, then so do the nodes
(`Nodes.Denotes.alike`).
-/

namespace JsonSchema

/-! ### Keywords that are read alike -/

namespace Value.Reordered

variable {v w x : Value} {p q : Pointer} (h : v.Reordered w)

include h

theorem string? (keyword : String) : Keyword.string? w keyword = Keyword.string? v keyword :=
  h.bind_get? (fun hxy => hxy.asString?) keyword

theorem membersOf {keyword name : String} (hm : (name, x) ∈ v.membersOf keyword) :
    ∃ y, (name, y) ∈ w.membersOf keyword ∧ x.Reordered y := by
  unfold Value.membersOf at hm ⊢
  cases hv : v.get? keyword with
  | none =>
    rw [hv] at hm
    cases hm
  | some u =>
    rw [hv] at hm
    obtain ⟨u', hw, hu⟩ := h.get? hv
    rw [hw]
    exact hu.members hm

theorem hasRegex {text : String} (ht : v.HasRegex text) : w.HasRegex text := by
  cases ht with
  | pattern ht => exact .pattern ((h.string? "pattern").trans ht)
  | name hm =>
    obtain ⟨y, hy, -⟩ := h.membersOf hm
    exact .name hy

/-- The schemas in a schema document are at the same places. -/
theorem subschema (hs : Subschema v p x q) : ∃ y, Subschema w p y q ∧ x.Reordered y := by
  cases hs with
  | not hx =>
    obtain ⟨y, hy, hxy⟩ := h.get? hx
    exact ⟨y, .not hy, hxy⟩
  | items hx harray =>
    obtain ⟨y, hy, hxy⟩ := h.get? hx
    exact ⟨y, .items hy (hxy.isArray.trans harray), hxy⟩
  | additionalItems hitems harray hx hobject =>
    obtain ⟨items, hitems', hi⟩ := h.get? hitems
    obtain ⟨y, hy, hxy⟩ := h.get? hx
    exact ⟨y, .additionalItems hitems' (hi.isArray.trans harray) hy (hxy.isObject.trans hobject), hxy⟩
  | additionalProperties hx hobject =>
    obtain ⟨y, hy, hxy⟩ := h.get? hx
    exact ⟨y, .additionalProperties hy (hxy.isObject.trans hobject), hxy⟩
  | @element keyword u x index hk hu hx =>
    obtain ⟨u', hu', huu'⟩ := h.get? hu
    obtain ⟨hi, rfl⟩ := List.getElem?_eq_some_iff.mp (List.mk_mem_zipIdx_iff_getElem?.mp hx)
    have hi' : index < u'.elements.length := huu'.elements.length_eq ▸ hi
    refine ⟨u'.elements[index], .element hk hu' ?_, huu'.elements.get hi hi'⟩
    exact List.mk_mem_zipIdx_iff_getElem?.mpr (List.getElem?_eq_getElem hi')
  | member hk hu hx =>
    obtain ⟨u', hu', huu'⟩ := h.get? hu
    obtain ⟨y, hy, hxy⟩ := huu'.members hx
    exact ⟨y, .member hk hu' hy, hxy⟩

theorem flag (keyword : String) : Keyword.flag w keyword = Keyword.flag v keyword := by
  rw [Keyword.flag, Keyword.flag, h.bind_get? fun hxy => hxy.asBool?]

theorem number? (keyword : String) : Keyword.number? w keyword = Keyword.number? v keyword :=
  h.bind_get? (fun hxy => hxy.asDouble?) keyword

theorem dateTime? (keyword : String) : Keyword.dateTime? w keyword = Keyword.dateTime? v keyword := by
  rw [Keyword.dateTime?, Keyword.dateTime?, h.string?]

theorem asCount? : Keyword.asCount? w = Keyword.asCount? v :=
  h.congr_node Keyword.asCount? (fun h => by cases h <;> rfl) fun _ => rfl

theorem count? (keyword : String) : Keyword.count? w keyword = Keyword.count? v keyword :=
  h.bind_get? (fun hxy => hxy.asCount?) keyword

/-- What is read of the elements is the same. -/
theorem filterMap_elements {α : Type} {f : Value → Option α} (hf : ∀ {x y : Value}, x.Reordered y → f y = f x) :
    w.elements.filterMap f = v.elements.filterMap f := by
  have helements := h.elements
  generalize v.elements = l, w.elements = m at helements
  induction helements with
  | nil => rfl
  | cons hxy _ ih => rw [List.filterMap_cons, List.filterMap_cons, hf hxy, ih]

theorem typeNames : Keyword.typeNames w = Keyword.typeNames v := by
  have hread : ∀ v : Value, Keyword.typeNames v = (v.asString?.map fun name => (TypeName.ofName? name).toList).getD
      (v.elements.filterMap fun element => element.asString?.bind TypeName.ofName?) := fun v => by
    unfold Keyword.typeNames Value.asString?
    cases v.node <;> rfl
  rw [hread, hread, h.asString?, h.filterMap_elements fun hxy => by rw [hxy.asString?]]

theorem type : Keyword.type w = Keyword.type v := by
  have hmap : ∀ v : Value, Keyword.type v =
      ((v.get? "type").bind fun t => some (Constraint.type (Keyword.typeNames t))).toList := fun v => by
    rw [Keyword.type, Option.map_eq_bind]
    rfl
  rw [hmap, hmap, h.bind_get? fun hxy => by rw [hxy.typeNames]]

theorem required : Keyword.required w = Keyword.required v := by
  have hmap : ∀ v : Value, Keyword.required v = ((v.get? "required").bind fun names =>
      some (Constraint.required (names.elements.filterMap Value.asString?))).toList := fun v => by
    rw [Keyword.required, Option.map_eq_bind]
    rfl
  rw [hmap, hmap, h.bind_get? fun hxy => by rw [hxy.filterMap_elements fun hxy => hxy.asString?]]

theorem numeric : Keyword.numeric w = Keyword.numeric v := by
  simp only [Keyword.numeric, h.number?, h.flag]

theorem stringLengths : Keyword.stringLengths w = Keyword.stringLengths v := by
  simp only [Keyword.stringLengths, h.count?]

theorem stringForms : Keyword.stringForms w = Keyword.stringForms v := by
  simp only [Keyword.stringForms, h.dateTime?, h.string?, h.flag]

theorem arraySizes : Keyword.arraySizes w = Keyword.arraySizes v := by
  simp only [Keyword.arraySizes, h.count?, h.flag]

theorem objectSizes : Keyword.objectSizes w = Keyword.objectSizes v := by
  simp only [Keyword.objectSizes, h.count?]

end Value.Reordered

/-- The keywords that hold no schemas leave constraints that refer to none. -/
theorem Keyword.nested_eq_nil (v : Value) : ∀ c ∈ type v ++ numeric v ++ stringLengths v ++ stringForms v ++
    arraySizes v ++ objectSizes v ++ required v, c.nested = [] := by
  simp only [type, numeric, stringLengths, stringForms, arraySizes, objectSizes, required, List.forall_mem_append,
    Option.mem_toList, Option.map_eq_some_iff, forall_exists_index, and_imp, forall_apply_eq_imp_iff₂]
  simp [Constraint.nested]

/-! ### Constraints that say the same -/

/-- Two schemas say the same of every value. -/
def SchemaId.Alike (below below' : SchemaId → Value → Verdict) (id id' : SchemaId) : Prop :=
  ∀ u, below id u = below' id' u

/-- Two constraints say the same of every value. -/
def Constraint.Alike (below below' : SchemaId → Value → Verdict) (c c' : Constraint) : Prop :=
  ∀ u, c.verdict below u = c'.verdict below' u

section

variable {below below' : SchemaId → Value → Verdict}

/-- Parts say the same if their schemas do. -/
theorem map_parts_congr {l m : List (SchemaId × Value)}
    (h : List.Forall₂ (fun a b => SchemaId.Alike below below' a.1 b.1 ∧ a.2 = b.2) l m) :
    (l.map fun part => below part.1 part.2) = m.map fun part => below' part.1 part.2 := by
  induction h with
  | nil => rfl
  | cons hab _ ih => rw [List.map_cons, List.map_cons, ih, hab.1, hab.2]

theorem map_congr_of_alike {ids ids' : List SchemaId} (h : List.Forall₂ (SchemaId.Alike below below') ids ids')
    (u : Value) : ids.map (below · u) = ids'.map (below' · u) := by
  induction h with
  | nil => rfl
  | cons hid _ ih => rw [List.map_cons, List.map_cons, ih, hid u]

theorem all_congr_of_alike {cs cs' : List Constraint} (h : List.Forall₂ (Constraint.Alike below below') cs cs')
    (u : Value) : Verdict.all (cs.map fun c => c.verdict below u) = .all (cs'.map fun c => c.verdict below' u) := by
  induction h with
  | nil => rfl
  | cons hc _ ih => rw [List.map_cons, List.map_cons, Verdict.all_cons, Verdict.all_cons, ih, hc u]

/-- Every schema on a list with keys has one under the same key on another list that says the same. -/
def Covered {κ : Type} (below below' : SchemaId → Value → Verdict) (l l' : List (κ × SchemaId)) : Prop :=
  ∀ {key id}, (key, id) ∈ l → ∃ id', (key, id') ∈ l' ∧ SchemaId.Alike below below' id id'

variable {named named' : List (String × SchemaId)} {patterns patterns' : List (Regex × SchemaId)}
  {additional additional' : Option SchemaId}

theorem exists_of_mem_coveringSchemas (hn : Covered below below' named named') (hn' : Covered below' below named' named)
    (hp : Covered below below' patterns patterns') (hp' : Covered below' below patterns' patterns)
    (ha : Option.Rel (SchemaId.Alike below below') additional additional') {key : String} {id : SchemaId}
    (hid : id ∈ coveringSchemas named patterns additional key) :
    ∃ id' ∈ coveringSchemas named' patterns' additional' key, SchemaId.Alike below below' id id' := by
  rcases mem_coveringSchemas_iff.1 hid with hid | ⟨regex, hid, hmatch⟩ | ⟨rfl, hnamed, hpatterns⟩
  · obtain ⟨id', hid', halike⟩ := hn hid
    exact ⟨id', mem_coveringSchemas_iff.2 (.inl hid'), halike⟩
  · obtain ⟨id', hid', halike⟩ := hp hid
    exact ⟨id', mem_coveringSchemas_iff.2 (.inr (.inl ⟨regex, hid', hmatch⟩)), halike⟩
  · cases ha with
    | @some _ id' halike =>
      refine ⟨id', mem_coveringSchemas_iff.2 (.inr (.inr ⟨rfl, fun i hi => ?_, fun regex i hi => ?_⟩)), halike⟩
      · obtain ⟨i', hi', -⟩ := hn' hi
        exact hnamed i' hi'
      · obtain ⟨i', hi', -⟩ := hp' hi
        exact hpatterns regex i' hi'

theorem map_parts_properties_subset (hn : Covered below below' named named')
    (hn' : Covered below' below named' named) (hp : Covered below below' patterns patterns')
    (hp' : Covered below' below patterns' patterns)
    (ha : Option.Rel (SchemaId.Alike below below') additional additional') (u : Value) :
    (((Constraint.properties named patterns additional).parts u).map fun part => below part.1 part.2) ⊆
      ((Constraint.properties named' patterns' additional').parts u).map fun part => below' part.1 part.2 := by
  intro t ht
  simp only [Constraint.parts, List.mem_map, List.mem_flatMap] at ht ⊢
  obtain ⟨part, ⟨m, hm, id, hid, rfl⟩, rfl⟩ := ht
  obtain ⟨id', hid', halike⟩ := exists_of_mem_coveringSchemas hn hn' hp hp' ha hid
  exact ⟨(id', m.2), ⟨m, hm, id', hid', rfl⟩, (halike m.2).symm⟩

/-- What is said of all constraints that are made of corresponding options. -/
theorem forall₂_toList_map {α β : Type} {R : α → β → Prop} {f : α → Constraint} {g : β → Constraint} {o : Option α}
    {o' : Option β} (ho : Option.Rel R o o') (hfg : ∀ a b, R a b → Constraint.Alike below below' (f a) (g b)) :
    List.Forall₂ (Constraint.Alike below below') (o.map f).toList (o'.map g).toList := by
  cases ho with
  | none => exact .nil
  | some hab => exact .cons (hfg _ _ hab) .nil

namespace Constraint.Alike

theorem single {id id' : SchemaId} (h : SchemaId.Alike below below' id id') :
    Alike below below' (.items (.single id) none) (.items (.single id') none) := by
  intro u
  refine congrArg Verdict.all (map_parts_congr ?_)
  rw [parts, parts, List.forall₂_map_left_iff, List.forall₂_map_right_iff]
  exact List.forall₂_same.mpr fun _ _ => ⟨h, rfl⟩

theorem tuple {ids ids' : List SchemaId} {additional additional' : Option SchemaId}
    (h : List.Forall₂ (SchemaId.Alike below below') ids ids')
    (ha : Option.Rel (SchemaId.Alike below below') additional additional') :
    Alike below below' (.items (.tuple ids) additional) (.items (.tuple ids') additional') := by
  intro u
  have hzip : ∀ l : List Value,
      List.Forall₂ (fun a b => SchemaId.Alike below below' a.1 b.1 ∧ a.2 = b.2) (ids.zip l) (ids'.zip l) := by
    clear ha
    induction h with
    | nil => simp
    | cons hid _ ih =>
      intro l
      cases l with
      | nil => exact .nil
      | cons e l => exact .cons ⟨hid, rfl⟩ (ih l)
  refine congrArg Verdict.all (map_parts_congr (List.rel_append (hzip _) ?_))
  cases ha with
  | none => exact .nil
  | some hid =>
    simp only [Option.toList_some, List.flatMap_cons, List.flatMap_nil, List.append_nil, h.length_eq]
    rw [List.forall₂_map_left_iff, List.forall₂_map_right_iff]
    exact List.forall₂_same.mpr fun _ _ => ⟨hid, rfl⟩

/-- Schemas for the members of objects say the same if those of the same name or pattern do. -/
theorem properties (hn : Covered below below' named named') (hn' : Covered below' below named' named)
    (hp : Covered below below' patterns patterns') (hp' : Covered below' below patterns' patterns)
    (ha : Option.Rel (SchemaId.Alike below below') additional additional') :
    Alike below below' (.properties named patterns additional) (.properties named' patterns' additional') := by
  intro u
  have ha' : Option.Rel (SchemaId.Alike below' below) additional' additional := by
    cases ha with
    | none => exact .none
    | some halike => exact .some fun u => (halike u).symm
  exact Verdict.all_congr (map_parts_properties_subset hn hn' hp hp' ha u)
    (map_parts_properties_subset hn' hn hp' hp ha' u)

theorem allOf {ids ids' : List SchemaId} (h : List.Forall₂ (SchemaId.Alike below below') ids ids') :
    Alike below below' (.allOf ids) (.allOf ids') := fun u => congrArg Verdict.all (map_congr_of_alike h u)

theorem anyOf {ids ids' : List SchemaId} (h : List.Forall₂ (SchemaId.Alike below below') ids ids') :
    Alike below below' (.anyOf ids) (.anyOf ids') := fun u => congrArg Verdict.any (map_congr_of_alike h u)

theorem oneOf {ids ids' : List SchemaId} (h : List.Forall₂ (SchemaId.Alike below below') ids ids') :
    Alike below below' (.oneOf ids) (.oneOf ids') := fun u => congrArg Verdict.one (map_congr_of_alike h u)

theorem not {id id' : SchemaId} (h : SchemaId.Alike below below' id id') :
    Alike below below' (.not id) (.not id') := fun u => congrArg Verdict.neg (h u)

theorem enum {vs ws : List Value} (h : List.Forall₂ Value.Reordered vs ws) :
    Alike below below' (.enum vs) (.enum ws) := by
  intro u
  have hany : (vs.any fun allowed => allowed.eq u) = ws.any fun allowed => allowed.eq u := by
    induction h with
    | nil => rfl
    | cons hvw _ ih => rw [List.any_cons, List.any_cons, ih, hvw.eq_left]
  exact congrArg Verdict.ofBool hany

theorem pattern {regex regex' : Regex} (h : regex = regex') :
    Alike below below' (.pattern regex) (.pattern regex') := fun _ => by rw [h]; rfl

theorem keywordEnum {v w : Value} (h : v.Reordered w) :
    List.Forall₂ (Alike below below') (Keyword.enum v) (Keyword.enum w) := by
  unfold Keyword.enum
  cases hx : v.get? "enum" with
  | none =>
    rw [h.get?_eq_none hx]
    exact .nil
  | some x =>
    obtain ⟨y, hy, hxy⟩ := h.get? hx
    rw [hy]
    exact .cons (.enum hxy.elements) .nil

/-- A constraint that refers to no schemas says the same anywhere. -/
theorem self {c : Constraint} (h : c.nested = []) : Alike below below' c c := by
  cases c with
  | items schemas additional =>
    cases schemas with
    | single id => cases h
    | tuple ids =>
      obtain ⟨rfl, ha⟩ := List.append_eq_nil_iff.mp h
      obtain rfl := Option.toList_eq_nil_iff.mp ha
      exact fun u => by simp [Constraint.verdict, parts]
  | properties named patterns additional =>
    obtain ⟨hnp, ha⟩ := List.append_eq_nil_iff.mp h
    obtain ⟨hn, hp⟩ := List.append_eq_nil_iff.mp hnp
    obtain rfl := List.map_eq_nil_iff.mp hn
    obtain rfl := List.map_eq_nil_iff.mp hp
    obtain rfl := Option.toList_eq_nil_iff.mp ha
    intro u
    have hparts : (Constraint.properties [] [] none).parts u = [] := List.flatMap_eq_nil_iff.mpr fun _ _ => rfl
    rw [Constraint.verdict, Constraint.verdict, hparts, List.map_nil, List.map_nil]
  | allOf ids | anyOf ids | oneOf ids =>
    obtain rfl : ids = [] := h
    exact fun _ => rfl
  | not id => cases h
  | _ => exact fun _ => rfl

end Constraint.Alike

end

/-! ### What keywords denote -/

namespace Nodes

variable {n n' : Nodes} {below below' : SchemaId → Value → Verdict} {v w : Value} {p : Pointer} {limit : Nat}

/-- The elements have nodes one by one. -/
theorem Elements.range {x : Value} {ids : List SchemaId} (h : n.Elements p x ids) :
    List.Forall₂ (fun index id => n.place (p.childIndex index) id) (List.range x.elements.length) ids := by
  rw [List.range_eq_range', ← List.zipIdx_map_snd, List.forall₂_map_left_iff]
  exact h

theorem PatternOf.alike {o o' : Option Regex} (hvw : v.Reordered w) (h : PatternOf limit v o)
    (h' : PatternOf limit w o') : Option.Rel (· = ·) o o' := by
  have hread := hvw.string? "pattern"
  cases h with
  | absent hx =>
    cases h' with
    | absent => exact .none
    | present hy => cases (hread.trans hx).symm.trans hy
  | present hx hregex =>
    cases h' with
    | absent hy => cases (hread.trans hx).symm.trans hy
    | present hy hregex' =>
      cases (hread.trans hx).symm.trans hy
      exact .some (Option.some.inj (hregex.symm.trans hregex'))

section

variable (hplace : ∀ {q id id'}, n.place q id → n'.place q id' → SchemaId.Alike below below' id id')

include hplace

theorem Elements.alike {x y : Value} {ids ids' : List SchemaId} (hxy : x.Reordered y) (h : n.Elements p x ids)
    (h' : n'.Elements p y ids') : List.Forall₂ (SchemaId.Alike below below') ids ids' := by
  have hrange := h'.range
  rw [← hxy.elements.length_eq] at hrange
  refine (forall₂_comp h.range.flip hrange).imp ?_
  rintro id id' ⟨index, hid, hid'⟩
  exact hplace hid hid'

variable (hvw : v.Reordered w)

include hvw

theorem Single.alike {keyword : String} {o o' : Option SchemaId} (h : n.Single v p keyword o)
    (h' : n'.Single w p keyword o') : Option.Rel (SchemaId.Alike below below') o o' := by
  cases h with
  | absent hx =>
    cases h' with
    | absent => exact .none
    | present hy => cases (hvw.get?_eq_none hx).symm.trans hy
  | present hx hid =>
    cases h' with
    | absent hy => cases hx.symm.trans (hvw.symm.get?_eq_none hy)
    | present _ hid' => exact .some (hplace hid hid')

theorem Sequence.alike {keyword : String} {o o' : Option (List SchemaId)} (h : n.Sequence v p keyword o)
    (h' : n'.Sequence w p keyword o') : Option.Rel (List.Forall₂ (SchemaId.Alike below below')) o o' := by
  cases h with
  | absent hx =>
    cases h' with
    | absent => exact .none
    | present hy => cases (hvw.get?_eq_none hx).symm.trans hy
  | present hx hids =>
    obtain ⟨y, hy, hxy⟩ := hvw.get? hx
    cases h' with
    | absent hy' => cases hy.symm.trans hy'
    | present hy' hids' =>
      cases hy.symm.trans hy'
      exact .some (hids.alike hplace hxy hids')

theorem NamedOf.alike {named named' : List (String × SchemaId)} (h : n.NamedOf v p named)
    (h' : n'.NamedOf w p named') : Covered below below' named named' := by
  intro name id hid
  obtain ⟨⟨name', x⟩, hx, rfl, hplaced⟩ := exists_of_forall₂ h.flip hid
  obtain ⟨y, hy, -⟩ := hvw.membersOf hx
  obtain ⟨⟨name'', id'⟩, hid', rfl, hplaced'⟩ := exists_of_forall₂ h' hy
  exact ⟨id', hid', hplace hplaced hplaced'⟩

theorem PatternsOf.alike {patterns patterns' : List (Regex × SchemaId)} (h : n.PatternsOf v p limit patterns)
    (h' : n'.PatternsOf w p limit patterns') : Covered below below' patterns patterns' := by
  intro regex id hid
  obtain ⟨⟨text, x⟩, hx, hread, hplaced⟩ := exists_of_forall₂ h.flip hid
  obtain ⟨y, hy, -⟩ := hvw.membersOf hx
  obtain ⟨⟨regex', id'⟩, hid', hread', hplaced'⟩ := exists_of_forall₂ h' hy
  cases hread.symm.trans hread'
  exact ⟨id', hid', hplace hplaced hplaced'⟩

section

variable (hnever : ∀ {id id'}, n.never id → n'.never id' → SchemaId.Alike below below' id id')

include hnever

theorem Rest.alike {keyword : String} {o o' : Option SchemaId} (h : n.Rest v p keyword o)
    (h' : n'.Rest w p keyword o') : Option.Rel (SchemaId.Alike below below') o o' := by
  cases h with
  | absent hx =>
    have hnone := hvw.get?_eq_none hx
    cases h' with
    | absent => exact .none
    | forbidden hy | restricted hy | ignored hy => cases hnone.symm.trans hy
  | forbidden hx hfalse hid =>
    obtain ⟨y, hy, hxy⟩ := hvw.get? hx
    rw [← hxy.asBool?] at hfalse
    cases h' with
    | absent hy' => cases hy.symm.trans hy'
    | forbidden _ _ hid' => exact .some (hnever hid hid')
    | restricted hy' hobject =>
      cases hy.symm.trans hy'
      cases (Value.asBool?_of_isObject hobject).symm.trans hfalse
    | ignored hy' hb =>
      cases hy.symm.trans hy'
      exact absurd hfalse hb
  | restricted hx hobject hid =>
    obtain ⟨y, hy, hxy⟩ := hvw.get? hx
    rw [← hxy.isObject] at hobject
    cases h' with
    | absent hy' => cases hy.symm.trans hy'
    | forbidden hy' hfalse =>
      cases hy.symm.trans hy'
      cases (Value.asBool?_of_isObject hobject).symm.trans hfalse
    | restricted _ _ hid' => exact .some (hplace hid hid')
    | ignored hy' _ hnot =>
      cases hy.symm.trans hy'
      cases hobject.symm.trans hnot
  | ignored hx hb hnot =>
    obtain ⟨y, hy, hxy⟩ := hvw.get? hx
    rw [← hxy.asBool?] at hb
    rw [← hxy.isObject] at hnot
    cases h' with
    | absent => exact .none
    | forbidden hy' hfalse =>
      cases hy.symm.trans hy'
      exact absurd hfalse hb
    | restricted hy' hobject =>
      cases hy.symm.trans hy'
      cases hobject.symm.trans hnot
    | ignored => exact .none

theorem ItemsOf.alike {o o' : Option (ItemSchemas × Option SchemaId)} (h : n.ItemsOf v p o) (h' : n'.ItemsOf w p o') :
    Option.Rel (fun i i' => Constraint.Alike below below' (.items i.1 i.2) (.items i'.1 i'.2)) o o' := by
  cases h with
  | absent hx =>
    have hnone := hvw.get?_eq_none hx
    cases h' with
    | absent => exact .none
    | tuple hy | single hy => cases hnone.symm.trans hy
  | tuple hx harray hids hrest =>
    obtain ⟨y, hy, hxy⟩ := hvw.get? hx
    rw [← hxy.isArray] at harray
    cases h' with
    | absent hy' => cases hy.symm.trans hy'
    | tuple hy' _ hids' hrest' =>
      cases hy.symm.trans hy'
      exact .some (.tuple (hids.alike hplace hxy hids') (hrest.alike hplace hvw hnever hrest'))
    | single hy' hnot =>
      cases hy.symm.trans hy'
      cases harray.symm.trans hnot
  | single hx hnot hid =>
    obtain ⟨y, hy, hxy⟩ := hvw.get? hx
    rw [← hxy.isArray] at hnot
    cases h' with
    | absent hy' => cases hy.symm.trans hy'
    | tuple hy' harray =>
      cases hy.symm.trans hy'
      cases harray.symm.trans hnot
    | single _ _ hid' => exact .some (.single (hplace hid hid'))

theorem PropertiesOf.alike
    {o o' : Option (List (String × SchemaId) × List (Regex × SchemaId) × Option SchemaId)}
    (h : n.PropertiesOf v p limit o) (h' : n'.PropertiesOf w p limit o') :
    Option.Rel (fun m m' => Constraint.Alike below below' (.properties m.1 m.2.1 m.2.2)
      (.properties m'.1 m'.2.1 m'.2.2)) o o' := by
  obtain ⟨additional, hrest, hmembers⟩ := h
  obtain ⟨additional', hrest', hmembers'⟩ := h'
  have ha := hrest.alike hplace hvw hnever hrest'
  have hsome : additional'.isSome = additional.isSome := by cases ha <;> rfl
  cases hmembers with
  | nothing hnamed hpatterns hnone =>
    cases hmembers' with
    | nothing => exact .none
    | members _ _ hany =>
      rw [hvw.isSome_get?, hvw.isSome_get?, hsome, hnamed, hpatterns, hnone] at hany
      simp at hany
  | members hnamed hpatterns hany =>
    cases hmembers' with
    | nothing hnamed' hpatterns' hnone' =>
      rw [← hvw.isSome_get?, ← hvw.isSome_get?, ← hsome, hnamed', hpatterns', hnone'] at hany
      simp at hany
    | members hnamed' hpatterns' =>
      have hback : ∀ {q id id'}, n'.place q id → n.place q id' → SchemaId.Alike below' below id id' :=
        fun hid hid' u => (hplace hid' hid u).symm
      exact .some (.properties (hnamed.alike hplace hvw hnamed') (hnamed'.alike hback hvw.symm hnamed)
        (hpatterns.alike hplace hvw hpatterns') (hpatterns'.alike hback hvw.symm hpatterns) ha)

/-- **Nodes of schema documents that differ only in the order of members say the same**, if the nodes at the same places
in them do. -/
theorem Denotes.alike {k k' : Compiled} (h : n.Denotes v p limit k) (h' : n'.Denotes w p limit k') :
    List.Forall₂ (Constraint.Alike below below') (k.node v).constraints (k'.node w).constraints := by
  have hplain : ∀ {cs : List Constraint}, (∀ c ∈ cs, c ∈ Keyword.type v ++ Keyword.numeric v ++
      Keyword.stringLengths v ++ Keyword.stringForms v ++ Keyword.arraySizes v ++ Keyword.objectSizes v ++
      Keyword.required v) → List.Forall₂ (Constraint.Alike below below') cs cs := fun hcs =>
    List.forall₂_same.mpr fun c hc => .self (Keyword.nested_eq_nil v c (hcs c hc))
  simp only [Compiled.node, hvw.type, hvw.numeric, hvw.stringLengths, hvw.stringForms,
    hvw.arraySizes, hvw.objectSizes, hvw.required]
  repeat refine List.rel_append ?_ ?_
  · exact hplain fun c hc => by simp [hc]
  · exact hplain fun c hc => by simp [hc]
  · exact hplain fun c hc => by simp [hc]
  · exact forall₂_toList_map (h.pattern.alike hvw h'.pattern) fun _ _ => .pattern
  · exact hplain fun c hc => by simp [hc]
  · exact hplain fun c hc => by simp [hc]
  · exact forall₂_toList_map (h.items.alike hplace hvw hnever h'.items) fun _ _ h => h
  · exact hplain fun c hc => by simp [hc]
  · exact forall₂_toList_map (h.properties.alike hplace hvw hnever h'.properties) fun _ _ h => h
  · exact hplain fun c hc => by simp [hc]
  · exact Constraint.Alike.keywordEnum hvw
  · refine List.rel_append (List.rel_append (List.rel_append ?_ ?_) ?_) ?_
    · exact forall₂_toList_map (h.allOf.alike hplace hvw h'.allOf) fun _ _ => .allOf
    · exact forall₂_toList_map (h.anyOf.alike hplace hvw h'.anyOf) fun _ _ => .anyOf
    · exact forall₂_toList_map (h.oneOf.alike hplace hvw h'.oneOf) fun _ _ => .oneOf
    · exact forall₂_toList_map (h.not.alike hplace hvw h'.not) fun _ _ => .not

end

end

end Nodes

end JsonSchema
