import JsonSchema.Proofs.Compile
import JsonSchema.Proofs.Copies

/-!
The construction of a schema with the things on which it depends as parameters (`Construction`): the resolution of
references, the check of entry points and the reading of regular expressions. The compiler is the construction with its
own ones (`Compiler.node_construction`).

Two constructions are in step if these are in step at each place that is visited (`Construction.InStep`). The schema
documents need not be the same: it is enough that they look the same to whoever reads keywords from them
(`Value.Likeness`), as a copy does (`Value.likeness_copied`). Then nodes are filled with constraints that are the same but
for the values in them (`SchemaNode.Like`).
-/

namespace JsonSchema

open Compilation

/-! ### The parameters -/

namespace SchemaSource

variable (s : SchemaSource) (regex : String → Pointer → Except SchemaError Regex)

/-- The constraint of a pattern, where regular expressions are read in a given way. -/
def patternBy : Compiling (List Constraint) :=
  match Keyword.string? s.value "pattern" with
  | none => return []
  | some text => do return [.pattern (← regex text (s.place "pattern"))]

/-- The schemas of members whose names match a pattern. -/
def patternsBy : Compiling (List (Regex × SchemaId)) :=
  match s.value.get? "patternProperties" with
  | none => return []
  | some v => v.members.mapM fun (pattern, schema) => do
    let place := (s.place "patternProperties").child pattern
    let regex ← regex pattern place
    return (regex, ← s.child schema place)

/-- The constraint on the members of objects. -/
def propertiesBy : Compiling (List Constraint) := do
  let additional ← s.additional "additionalProperties"
  if (s.value.get? "properties").isSome || (s.value.get? "patternProperties").isSome || additional.isSome then
    let named ← s.named
    let patterns ← s.patternsBy regex
    return [.properties named patterns additional]
  else return []

/-- The constraints of all keywords, in the order in which they are checked. -/
def constraintsBy : Compiling (List Constraint) := do
  let pattern ← s.patternBy regex
  let items ← s.items
  let properties ← s.propertiesBy regex
  let combinations ← s.combinations
  return Keyword.type s.value ++ Keyword.numeric s.value ++ Keyword.stringLengths s.value ++ pattern ++
    Keyword.stringForms s.value ++ Keyword.arraySizes s.value ++ items ++ Keyword.objectSizes s.value ++
    properties ++ Keyword.required s.value ++ Keyword.enum s.value ++ combinations

/-- The node of all keywords. -/
def nodeBy : Compiling SchemaNode := do
  return ⟨← s.constraintsBy regex, s.value.get? "default", Keyword.string? s.value "title",
    Keyword.string? s.value "description"⟩

end SchemaSource

/-- Reads a regular expression at a place of the document, if it is not too long. -/
def Document.regex (d : Document) (read? : String → Option Regex) (maxLength : Nat) (text : String) (place : Pointer) :
    Except SchemaError Regex :=
  if maxLength < text.utf8ByteSize then .error (.invalidPattern d.label place text (.tooLong maxLength))
  else
    match read? text with
    | some regex => .ok regex
    | none => .error (.invalidPattern d.label place text .malformed)

/-- What the construction of schemas depends on. -/
structure Construction where
  resolve : Value → Document → Resolving Target
  check : Value → Document → Pointer → Compiling Unit
  regex : Document → String → Pointer → Except SchemaError Regex
  maxDepth : Nat

namespace Construction

/-- Compiles the schema at a place. -/
def node (k : Construction) : Nat → Value → Document → Pointer → Compiling SchemaId
  | remaining, v, document, p => do
    let place := document.location p
    match (← get).known.lookup place with
    | some id => return id
    | none =>
      match remaining with
      | 0 => throw (.tooDeep document.label p k.maxDepth)
      | remaining + 1 =>
        if v.kind = .reference then
          let target ← resolving (k.resolve v document)
          if ((← get).known.lookup target.location).isNone then
            k.check target.value target.document target.pointer
          let id ← node k remaining target.value target.document target.pointer
          enter place id
          return id
        else
          let id ← building SchemaBuilder.allocate
          enter place id
          let node ← SchemaSource.nodeBy ⟨v, document, p, fun v p => node k remaining v document p, 0⟩ (k.regex document)
          building fun b => ((), b.update id fun _ => node)
          return id

/-- The schema document at a place. The bound on regular expressions is left to those who read them. -/
def source (k : Construction) (remaining : Nat) (v : Value) (d : Document) (p : Pointer) : SchemaSource :=
  ⟨v, d, p, fun w q => k.node remaining w d q, 0⟩

variable {k : Construction} {v : Value} {d : Document} {p : Pointer} {x : Compilation} {id : SchemaId} {remaining : Nat}

theorem node_of_known (h : x.known.lookup (d.location p) = some id) : k.node remaining v d p x = (.ok id, x) := by
  cases remaining <;> rw [node] <;> simp only [run_bind, run_get, h] <;> rfl

theorem node_zero (h : x.known.lookup (d.location p) = none) :
    k.node 0 v d p x = (.error (.tooDeep d.label p k.maxDepth), x) := by
  rw [node]
  simp only [run_bind, run_get, h]
  rfl

theorem node_reference_run (h : x.known.lookup (d.location p) = none) (hr : v.kind = .reference) :
    k.node (remaining + 1) v d p x = (do
      let target ← resolving (k.resolve v d)
      if ((← get).known.lookup target.location).isNone then
        k.check target.value target.document target.pointer
      let id ← k.node remaining target.value target.document target.pointer
      enter (d.location p) id
      return id : Compiling SchemaId) x := by
  rw [node, run_bind, run_get]
  simp only [h, if_pos hr]

theorem node_schema_run (h : x.known.lookup (d.location p) = none) (hr : v.kind ≠ .reference) :
    k.node (remaining + 1) v d p x = (do
      let id ← building SchemaBuilder.allocate
      enter (d.location p) id
      let node ← (k.source remaining v d p).nodeBy (k.regex d)
      building fun b => ((), b.update id fun _ => node)
      return id : Compiling SchemaId) x := by
  rw [node, run_bind, run_get]
  simp only [h, if_neg hr]
  rfl

end Construction

/-- The construction as the compiler does it. -/
def Compiler.construction (c : Compiler) : Construction :=
  ⟨c.resolver.resolve, c.check, fun d => d.regex Regex.ofText? c.limits.maxRegexLength, c.limits.maxDepth⟩

theorem Compiler.node_construction (c : Compiler) (remaining : Nat) :
    c.construction.node remaining = c.node remaining := by
  induction remaining with
  | zero =>
    funext v d p
    rw [Construction.node, Compiler.node]
    rfl
  | succ remaining ih =>
    funext v d p
    rw [Construction.node, Compiler.node]
    simp only [ih]
    rfl

/-! ### Likeness -/

/-- Values that look the same to whoever reads the keywords of a schema document. -/
structure Value.Likeness (V : Value → Value → Prop) : Prop where
  kind : ∀ {v w}, V v w → w.kind = v.kind
  isArray : ∀ {v w}, V v w → w.isArray = v.isArray
  isObject : ∀ {v w}, V v w → w.isObject = v.isObject
  asBool? : ∀ {v w}, V v w → w.asBool? = v.asBool?
  get? : ∀ {v w}, V v w → ∀ key, Option.Rel V (v.get? key) (w.get? key)
  elements : ∀ {v w}, V v w → List.Forall₂ V v.elements w.elements
  members : ∀ {v w}, V v w → List.Forall₂ (fun m m' => m.1 = m'.1 ∧ V m.2 m'.2) v.members w.members
  string? : ∀ {v w}, V v w → ∀ keyword, Keyword.string? w keyword = Keyword.string? v keyword
  type : ∀ {v w}, V v w → Keyword.type w = Keyword.type v
  numeric : ∀ {v w}, V v w → Keyword.numeric w = Keyword.numeric v
  stringLengths : ∀ {v w}, V v w → Keyword.stringLengths w = Keyword.stringLengths v
  stringForms : ∀ {v w}, V v w → Keyword.stringForms w = Keyword.stringForms v
  arraySizes : ∀ {v w}, V v w → Keyword.arraySizes w = Keyword.arraySizes v
  objectSizes : ∀ {v w}, V v w → Keyword.objectSizes w = Keyword.objectSizes v
  required : ∀ {v w}, V v w → Keyword.required w = Keyword.required v

/-- The same constraint, but for the values of an enumeration. -/
inductive Constraint.Like (V : Value → Value → Prop) : Constraint → Constraint → Prop
  | same (c : Constraint) : Like V c c
  | enum {vs ws : List Value} : List.Forall₂ V vs ws → Like V (.enum vs) (.enum ws)

/-- The same constraints and annotations, but for the values in them. -/
structure SchemaNode.Like (V : Value → Value → Prop) (n m : SchemaNode) : Prop where
  constraints : List.Forall₂ (Constraint.Like V) n.constraints m.constraints
  default? : Option.Rel V n.default? m.default?
  title : m.title = n.title
  description : m.description = n.description

theorem Value.likeness_eq : Value.Likeness (· = ·) := by
  constructor
  case get? =>
    rintro v _ rfl key
    cases v.get? key with
    | none => exact .none
    | some w => exact .some rfl
  case elements =>
    rintro v _ rfl
    exact List.forall₂_same.mpr fun _ _ => rfl
  case members =>
    rintro v _ rfl
    exact List.forall₂_same.mpr fun _ _ => ⟨rfl, rfl⟩
  all_goals
    rintro v _ rfl
    intros
    rfl

theorem Constraint.forall₂_like_self (V : Value → Value → Prop) (cs : List Constraint) :
    List.Forall₂ (Constraint.Like V) cs cs :=
  List.forall₂_same.mpr fun c _ => .same c

/-- What is alike with the same values is the same. -/
theorem SchemaNode.Like.eq {n m : SchemaNode} (h : n.Like (· = ·) m) : n = m := by
  obtain ⟨cs, default?, title, description⟩ := n
  obtain ⟨cs', default?', title', description'⟩ := m
  obtain ⟨hcs, hdefault, rfl, rfl⟩ := h
  have hconstraint : ∀ c c', Constraint.Like (· = ·) c c' → c = c' := by
    rintro c c' (_ | hvalues)
    · rfl
    · rw [List.forall₂_eq_eq_eq] at hvalues
      rw [hvalues]
  have hcs' : List.Forall₂ (· = ·) cs cs' := hcs.imp hconstraint
  rw [List.forall₂_eq_eq_eq] at hcs'
  subst hcs'
  cases hdefault with
  | none => rfl
  | some hv => rw [hv]

/-! ### Keywords in step -/

/-- The text of a regular expression in a schema document, with its place. -/
inductive Value.RegexAt (v : Value) (p : Pointer) : String → Pointer → Prop
  | pattern {text : String} : Keyword.string? v "pattern" = some text → RegexAt v p text (p.child "pattern")
  | name {u w : Value} {text : String} : v.get? "patternProperties" = some u → (text, w) ∈ u.members →
      RegexAt v p text ((p.child "patternProperties").child text)

namespace SchemaSource

/-- Schema documents that look the same at the same place, whose parts are in step. -/
structure Alike (m : Lockstep Compilation Compilation SchemaError SchemaError) (V : Value → Value → Prop)
    (s s' : SchemaSource) (regex regex' : String → Pointer → Except SchemaError Regex) : Prop where
  likeness : Value.Likeness V
  value : V s.value s'.value
  pointer : s'.pointer = s.pointer
  child : ∀ {w w' q}, V w w' → Subschema s.value s.pointer w q → Subschema s'.value s.pointer w' q →
    m.Relates (· = ·) (s.child w q) (s'.child w' q)
  regex : ∀ {text place}, s.value.RegexAt s.pointer text place →
    m.Relates (· = ·) (liftM (regex text place)) (liftM (regex' text place))
  never : m.Relates (· = ·) (building SchemaBuilder.never) (building SchemaBuilder.never)

variable {m : Lockstep Compilation Compilation SchemaError SchemaError} {V : Value → Value → Prop}
  {s s' : SchemaSource} {regex regex' : String → Pointer → Except SchemaError Regex}

namespace Alike

variable (h : s.Alike m V s' regex regex')

include h

/-- A keyword is missing on both sides, or holds values that look the same. -/
theorem get?_cases (keyword : String) : (s.value.get? keyword = none ∧ s'.value.get? keyword = none) ∨
    ∃ w w', s.value.get? keyword = some w ∧ s'.value.get? keyword = some w' ∧ V w w' := by
  have hget := h.likeness.get? h.value keyword
  cases hw : s.value.get? keyword <;> cases hw' : s'.value.get? keyword <;> rw [hw, hw'] at hget <;> cases hget
  · exact .inl ⟨rfl, rfl⟩
  · exact .inr ⟨_, _, rfl, rfl, ‹_›⟩

theorem place : s'.place = s.place := by
  unfold SchemaSource.place
  rw [h.pointer]

theorem relates_patternBy : m.Relates (· = ·) (s.patternBy regex) (s'.patternBy regex') := by
  unfold patternBy
  rw [h.likeness.string? h.value, h.place]
  cases htext : Keyword.string? s.value "pattern" with
  | none => exact .pure rfl
  | some text => exact (h.regex (.pattern htext)).bind_eq fun regex => .pure rfl

theorem relates_single {keyword : String} (hs : ∀ {w w'}, V w w' → s.value.get? keyword = some w →
      s'.value.get? keyword = some w' → Subschema s.value s.pointer w (s.pointer.child keyword) ∧
        Subschema s'.value s.pointer w' (s.pointer.child keyword)) :
    m.Relates (· = ·) (s.single keyword) (s'.single keyword) := by
  unfold single
  rw [h.place]
  rcases h.get?_cases keyword with ⟨hw, hw'⟩ | ⟨w, w', hw, hw', hV⟩
  · rw [hw, hw']
    exact .pure rfl
  · rw [hw, hw']
    exact (h.child hV (hs hV hw hw').1 (hs hV hw hw').2).map some

theorem relates_sequence {keyword : String} (hk : keyword ∈ ["items", "allOf", "anyOf", "oneOf"]) :
    m.Relates (· = ·) (s.sequence keyword) (s'.sequence keyword) := by
  unfold sequence
  rw [h.place]
  rcases h.get?_cases keyword with ⟨hw, hw'⟩ | ⟨w, w', hw, hw', hV⟩
  · rw [hw, hw']
    exact .pure rfl
  · rw [hw, hw']
    refine ((Lockstep.Relates.mapM (Q := (· = ·)) (rel_zipIdx (h.likeness.elements hV) 0) ?_).weaken ?_).map some
    · rintro ⟨e, index⟩ he ⟨e', _⟩ he' ⟨hV, rfl⟩
      exact h.child hV (.element hk hw he) (.element hk hw' he')
    · intro ids ids' hids
      rwa [List.forall₂_eq_eq_eq] at hids

theorem relates_named : m.Relates (· = ·) s.named s'.named := by
  unfold named
  rw [h.place]
  rcases h.get?_cases "properties" with ⟨hw, hw'⟩ | ⟨w, w', hw, hw', hV⟩
  · rw [hw, hw']
    exact .pure rfl
  · rw [hw, hw']
    refine (Lockstep.Relates.mapM (Q := (· = ·)) (h.likeness.members hV) ?_).weaken ?_
    · rintro ⟨name, e⟩ he ⟨_, e'⟩ he' ⟨rfl, hV⟩
      exact (h.child hV (.member (by simp) hw he) (.member (by simp) hw' he')).map (name, ·)
    · intro entries entries' hentries
      rwa [List.forall₂_eq_eq_eq] at hentries

theorem relates_patternsBy : m.Relates (· = ·) (s.patternsBy regex) (s'.patternsBy regex') := by
  unfold patternsBy
  rw [h.place]
  rcases h.get?_cases "patternProperties" with ⟨hw, hw'⟩ | ⟨w, w', hw, hw', hV⟩
  · rw [hw, hw']
    exact .pure rfl
  · rw [hw, hw']
    refine (Lockstep.Relates.mapM (Q := (· = ·)) (h.likeness.members hV) ?_).weaken ?_
    · rintro ⟨text, e⟩ he ⟨_, e'⟩ he' ⟨rfl, hV⟩
      exact (h.regex (.name hw he)).bind_eq fun regex =>
        (h.child hV (.member (by simp) hw he) (.member (by simp) hw' he')).map (regex, ·)
    · intro entries entries' hentries
      rwa [List.forall₂_eq_eq_eq] at hentries

theorem relates_combinations : m.Relates (· = ·) s.combinations s'.combinations :=
  (h.relates_sequence (by simp)).bind_eq fun _ => (h.relates_sequence (by simp)).bind_eq fun _ =>
    (h.relates_sequence (by simp)).bind_eq fun _ =>
      (h.relates_single fun _ hw hw' => ⟨.not hw, .not hw'⟩).bind_eq fun _ => .pure rfl

theorem relates_additional {keyword : String} (hs : ∀ {w w'}, V w w' → s.value.get? keyword = some w →
      s'.value.get? keyword = some w' → w.isObject = true → w'.isObject = true →
      Subschema s.value s.pointer w (s.pointer.child keyword) ∧
        Subschema s'.value s.pointer w' (s.pointer.child keyword)) :
    m.Relates (· = ·) (s.additional keyword) (s'.additional keyword) := by
  unfold additional
  rcases h.get?_cases keyword with ⟨hw, hw'⟩ | ⟨w, w', hw, hw', hV⟩
  · rw [hw, hw']
    exact .pure rfl
  · rw [hw, hw']
    dsimp only
    rw [h.likeness.asBool? hV, h.likeness.isObject hV]
    by_cases hfalse : w.asBool? = some false
    · rw [if_pos hfalse, if_pos hfalse]
      exact h.never.map some
    · rw [if_neg hfalse, if_neg hfalse]
      by_cases hobject : w.isObject = true
      · rw [if_pos hobject, if_pos hobject]
        refine h.relates_single fun {u u'} hV' hu hu' => ?_
        cases hw.symm.trans hu
        cases hw'.symm.trans hu'
        exact hs hV hw hw' hobject ((h.likeness.isObject hV).trans hobject)
      · rw [if_neg hobject, if_neg hobject]
        exact .pure rfl

theorem relates_items : m.Relates (· = ·) s.items s'.items := by
  unfold items
  rcases h.get?_cases "items" with ⟨hw, hw'⟩ | ⟨w, w', hw, hw', hV⟩
  · rw [hw, hw']
    exact .pure rfl
  · rw [hw, hw']
    dsimp only
    rw [h.likeness.isArray hV]
    by_cases harray : w.isArray = true
    · have harray' : w'.isArray = true := (h.likeness.isArray hV).trans harray
      rw [if_pos harray, if_pos harray]
      refine (h.relates_additional fun _ ha ha' hobject hobject' => ?_).bind_eq fun _ =>
        (h.relates_sequence (by simp)).bind_eq fun _ => .pure rfl
      exact ⟨.additionalItems hw harray ha hobject, .additionalItems hw' harray' ha' hobject'⟩
    · have harray' : w'.isArray = false := by simpa using (h.likeness.isArray hV).trans (by simpa using harray)
      rw [if_neg harray, if_neg harray]
      refine (h.relates_single fun {u u'} hV' hu hu' => ?_).bind_eq fun _ => .pure rfl
      cases hw.symm.trans hu
      cases hw'.symm.trans hu'
      exact ⟨.items hw (by simpa using harray), .items hw' harray'⟩

theorem relates_propertiesBy : m.Relates (· = ·) (s.propertiesBy regex) (s'.propertiesBy regex') := by
  have hsome : ∀ keyword, (s'.value.get? keyword).isSome = (s.value.get? keyword).isSome := by
    intro keyword
    rcases h.get?_cases keyword with ⟨hw, hw'⟩ | ⟨w, w', hw, hw', -⟩
    · rw [hw, hw']
    · rw [hw, hw']
      rfl
  refine (h.relates_additional fun _ ha ha' hobject hobject' => ?_).bind_eq fun additional => ?_
  · exact ⟨.additionalProperties ha hobject, .additionalProperties ha' hobject'⟩
  · rw [hsome, hsome]
    split
    · exact h.relates_named.bind_eq fun _ => h.relates_patternsBy.bind_eq fun _ => .pure rfl
    · exact .pure rfl

theorem like_enum : List.Forall₂ (Constraint.Like V) (Keyword.enum s.value) (Keyword.enum s'.value) := by
  unfold Keyword.enum
  rcases h.get?_cases "enum" with ⟨hw, hw'⟩ | ⟨w, w', hw, hw', hV⟩
  · rw [hw, hw']
    exact .nil
  · rw [hw, hw']
    exact .cons (.enum (h.likeness.elements hV)) .nil

/-- **The keywords of a schema document are compiled in step**, if the schemas in it are. -/
theorem relates_nodeBy : m.Relates (SchemaNode.Like V) (s.nodeBy regex) (s'.nodeBy regex') := by
  have hconstraints :
      m.Relates (List.Forall₂ (Constraint.Like V)) (s.constraintsBy regex) (s'.constraintsBy regex') := by
    unfold constraintsBy
    refine h.relates_patternBy.bind_eq fun _ => h.relates_items.bind_eq fun _ =>
      h.relates_propertiesBy.bind_eq fun _ => h.relates_combinations.bind_eq fun _ => .pure ?_
    rw [h.likeness.type h.value, h.likeness.numeric h.value, h.likeness.stringLengths h.value,
      h.likeness.stringForms h.value, h.likeness.arraySizes h.value, h.likeness.objectSizes h.value,
      h.likeness.required h.value]
    have hself := Constraint.forall₂_like_self V
    exact List.rel_append (List.rel_append (hself _) h.like_enum) (hself _)
  exact hconstraints.bind fun cs cs' hcs =>
    .pure ⟨hcs, h.likeness.get? h.value _, h.likeness.string? h.value _, h.likeness.string? h.value _⟩

end Alike

end SchemaSource

/-! ### Places in step -/

namespace Construction

/-- Two constructions in step. `places` says which values, with their documents, are compiled at the same place. -/
structure InStep (m : Lockstep Compilation Compilation SchemaError SchemaError) (V : Value → Value → Prop)
    (k k' : Construction) (places : Value → Document → Value → Document → Pointer → Prop) : Prop where
  likeness : Value.Likeness V
  value : ∀ {v d v' d' p}, places v d v' d' p → V v v'
  known : ∀ {x x' v d v' d' p}, m.states x x' → places v d v' d' p →
    x'.known.lookup (d'.location p) = x.known.lookup (d.location p)
  enter : ∀ {v d v' d' p}, places v d v' d' p → ∀ id,
    m.Relates (· = ·) (enter (d.location p) id) (enter (d'.location p) id)
  allocate : m.Relates (· = ·) (building SchemaBuilder.allocate) (building SchemaBuilder.allocate)
  never : m.Relates (· = ·) (building SchemaBuilder.never) (building SchemaBuilder.never)
  fill : ∀ {node node' : SchemaNode} (id : SchemaId), node.Like V node' →
    m.Relates (· = ·) (building fun b => ((), b.update id fun _ => node))
      (building fun b => ((), b.update id fun _ => node'))
  subschema : ∀ {v d v' d' p w w' q}, places v d v' d' p → v.kind ≠ .reference → V w w' → Subschema v p w q →
    Subschema v' p w' q → places w d w' d' q
  resolve : ∀ {v d v' d' p}, places v d v' d' p → v.kind = .reference →
    m.Relates (fun t t' => t'.pointer = t.pointer ∧ places t.value t.document t'.value t'.document t.pointer)
      (resolving (k.resolve v d)) (resolving (k'.resolve v' d'))
  check : ∀ {v d v' d' p}, places v d v' d' p → m.Relates (· = ·) (k.check v d p) (k'.check v' d' p)
  regex : ∀ {v d v' d' p text place}, places v d v' d' p → v.kind ≠ .reference → v.RegexAt p text place →
    m.Relates (· = ·) (liftM (k.regex d text place)) (liftM (k'.regex d' text place))
  deep : ∀ {v d v' d' p}, places v d v' d' p →
    m.errors (.tooDeep d.label p k.maxDepth) (.tooDeep d'.label p k'.maxDepth)

variable {m : Lockstep Compilation Compilation SchemaError SchemaError} {V : Value → Value → Prop}
  {k k' : Construction} {places : Value → Document → Value → Document → Pointer → Prop} {v v' : Value}
  {d d' : Document} {p : Pointer}

namespace InStep

variable {remaining remaining' : Nat} {x x' : Compilation} (h : InStep m V k k' places)

include h

/-- A place that is known on one side is known on the other, as the same node. -/
theorem ends_of_known {id : SchemaId} (hx : m.states x x') (hp : places v d v' d' p)
    (hk : x.known.lookup (d.location p) = some id) :
    m.Ends (· = ·) (k.node remaining v d p x) (k'.node remaining' v' d' p x') := by
  rw [node_of_known hk, node_of_known ((h.known hx hp).trans hk)]
  exact .ok rfl hx

/-- A reference leads to the same place, which is checked before it is entered. -/
theorem ends_of_reference
    (ih : ∀ {v d v' d' p}, places v d v' d' p →
      m.Relates (· = ·) (k.node remaining v d p) (k'.node remaining' v' d' p))
    (hx : m.states x x') (hp : places v d v' d' p) (hk : x.known.lookup (d.location p) = none)
    (hr : v.kind = .reference) :
    m.Ends (· = ·) (k.node (remaining + 1) v d p x) (k'.node (remaining' + 1) v' d' p x') := by
  have hr' : v'.kind = .reference := (h.likeness.kind (h.value hp)).trans hr
  rw [node_reference_run hk hr, node_reference_run ((h.known hx hp).trans hk) hr']
  refine ((h.resolve hp hr).bind fun t t' ⟨hpointer, ht⟩ => .get_bind fun y y' hy => ?_) x x' hx
  have hnode : m.Relates (· = ·)
      (do
        let id ← k.node remaining t.value t.document t.pointer
        Compilation.enter (d.location p) id
        return id)
      (do
        let id ← k'.node remaining' t'.value t'.document t'.pointer
        Compilation.enter (d'.location p) id
        return id) := by
    rw [hpointer]
    exact (ih ht).bind_eq fun id => (h.enter hp id).bind_eq fun _ => .pure rfl
  have hlookup : y'.known.lookup t'.location = y.known.lookup t.location := by
    unfold Target.location
    rw [hpointer]
    exact h.known hy ht
  rw [hlookup]
  split
  · refine Lockstep.Relates.bind_eq ?_ fun _ => hnode
    rw [hpointer]
    exact h.check ht
  · exact hnode

/-- A schema document is entered before its keywords are read. -/
theorem ends_of_schema
    (ih : ∀ {v d v' d' p}, places v d v' d' p →
      m.Relates (· = ·) (k.node remaining v d p) (k'.node remaining' v' d' p))
    (hx : m.states x x') (hp : places v d v' d' p) (hk : x.known.lookup (d.location p) = none)
    (hr : v.kind ≠ .reference) :
    m.Ends (· = ·) (k.node (remaining + 1) v d p x) (k'.node (remaining' + 1) v' d' p x') := by
  have hr' : v'.kind ≠ .reference := by rwa [h.likeness.kind (h.value hp)]
  rw [node_schema_run hk hr, node_schema_run ((h.known hx hp).trans hk) hr']
  have hsource : (k.source remaining v d p).Alike m V (k'.source remaining' v' d' p) (k.regex d) (k'.regex d') :=
    ⟨h.likeness, h.value hp, rfl, fun hV hs hs' => ih (h.subschema hp hr hV hs hs'), h.regex hp hr, h.never⟩
  have hfill : ∀ (id : SchemaId) (node node' : SchemaNode), node.Like V node' → m.Relates (· = ·)
      (do
        building fun b => ((), b.update id fun _ => node)
        return id)
      (do
        building fun b => ((), b.update id fun _ => node')
        return id) := fun id node node' hnode => (h.fill id hnode).bind_eq fun _ => .pure rfl
  exact (h.allocate.bind_eq fun id => (h.enter hp id).bind_eq fun _ =>
    hsource.relates_nodeBy.bind (hfill id)) x x' hx

/-- **A place is compiled in step**, with the same number of levels left, or with more of them on the second side if it
may succeed where the first one fails. -/
theorem relates_node (hlevels : remaining = remaining' ∨ remaining ≤ remaining' ∧ ∀ e, m.excused e)
    (hp : places v d v' d' p) : m.Relates (· = ·) (k.node remaining v d p) (k'.node remaining' v' d' p) := by
  induction remaining generalizing remaining' v d v' d' p with
  | zero =>
    intro x x' hx
    cases hk : x.known.lookup (d.location p) with
    | some id => exact h.ends_of_known hx hp hk
    | none =>
      rw [node_zero hk]
      rcases hlevels with rfl | ⟨-, hexcused⟩
      · rw [node_zero ((h.known hx hp).trans hk)]
        exact .error (h.deep hp) hx
      · exact .excused (hexcused _)
  | succ remaining ih =>
    intro x x' hx
    obtain ⟨remaining', rfl⟩ : ∃ n, remaining' = n + 1 := ⟨remaining' - 1, by omega⟩
    have hlevels : remaining = remaining' ∨ remaining ≤ remaining' ∧ ∀ e, m.excused e :=
      hlevels.imp Nat.succ.inj fun ⟨hle, he⟩ => ⟨Nat.le_of_succ_le_succ hle, he⟩
    cases hk : x.known.lookup (d.location p) with
    | some id => exact h.ends_of_known hx hp hk
    | none =>
      by_cases hr : v.kind = .reference
      · exact h.ends_of_reference (ih hlevels) hx hp hk hr
      · exact h.ends_of_schema (ih hlevels) hx hp hk hr

/-- The check and the construction of a whole document are in step. -/
theorem relates_work (hlevels : remaining = remaining' ∨ remaining ≤ remaining' ∧ ∀ e, m.excused e)
    (hp : places v d v' d' p) :
    m.Relates (· = ·) (k.check v d p >>= fun _ => k.node remaining v d p)
      (k'.check v' d' p >>= fun _ => k'.node remaining' v' d' p) :=
  (h.check hp).bind_eq fun _ => h.relates_node hlevels hp

end InStep

end Construction

end JsonSchema
