import JsonSchema.Pointer.Resolve
import JsonSchema.Schema
import JsonSchema.Validation.Issue
import JsonSchema.Value.Equality

/-!
Validation of values. Every constraint of a schema is checked, in order, and each broken one makes an
issue at its place. Below a depth limit nothing is looked at: such a place makes an issue of its own, and
where a combination of schemas turns on it the combination stays undecided.
-/

namespace JsonSchema

/-! ## Constraints on the value alone -/

/-- The tolerance of divisibility, relative to the quotient. -/
def multipleTolerance : Double := Double.ofRatio false 1 (Nat.pow 10 9)

/-- A number is a multiple of a quantity when the quotient is an integer up to the tolerance. -/
def isMultipleOf (x quantity : Double) : Bool :=
  if quantity.eq (.zero false) || !x.isFinite then false
  else
    let q := x.div quantity
    (q.sub q.round).abs.le (multipleTolerance.mul (q.abs.max (Double.ofInt 1)))

/-- The value meets a constraint that does not look into its parts. Constraints on values of another kind
are met. -/
def Constraint.holds (c : Constraint) (v : Value) : Bool :=
  match c with
  | .type kinds => kinds.any fun kind => kind.accepts v
  | .minimum bound exclusive => v.asDouble?.all fun x => if exclusive then bound.lt x else bound.le x
  | .maximum bound exclusive => v.asDouble?.all fun x => if exclusive then x.lt bound else x.le bound
  | .multipleOf quantity => v.asDouble?.all fun x => isMultipleOf x quantity
  | .minLength n => v.asString?.all fun s => n ≤ s.length
  | .maxLength n => v.asString?.all fun s => s.length ≤ n
  | .pattern regex => v.asString?.all regex.isMatch
  | .formatMinimum bound exclusive =>
    (v.asString?.bind DateTime.parseZoned?).all fun t =>
      match t.compare? bound with
      | some .gt => true
      | some .eq => !exclusive
      | _ => false
  | .formatMaximum bound exclusive =>
    (v.asString?.bind DateTime.parseZoned?).all fun t =>
      match t.compare? bound with
      | some .lt => true
      | some .eq => !exclusive
      | _ => false
  | .format f => v.asString?.all f.accepts
  | .minItems n => !v.isArray || n ≤ v.length
  | .maxItems n => !v.isArray || v.length ≤ n
  | .uniqueItems => !v.isArray || Value.distinct v.elements
  | .minProperties n => !v.isObject || n ≤ v.length
  | .maxProperties n => !v.isObject || v.length ≤ n
  | .required names => !v.isObject || names.all fun name => (v.get? name).isSome
  | .enum values => values.any fun allowed => allowed.eq v
  | .items .. => true
  | .properties .. => true
  | .allOf _ => true
  | .anyOf _ => true
  | .oneOf _ => true
  | .not _ => true

/-! ## Constraints on parts -/

/-- The schema of the element at an index. -/
def ItemSchemas.schemaAt? (schemas : ItemSchemas) (additional : Option SchemaId) (index : Nat) :
    Option SchemaId :=
  match schemas with
  | .single schema => some schema
  | .tuple schemas => schemas[index]? <|> additional

/-- The schemas of the member with a key: those of its name and those whose pattern it matches, or the
additional one if there are none. -/
def memberSchemas (named : List (String × SchemaId)) (patterns : List (Regex × SchemaId))
    (additional : Option SchemaId) (key : String) : List SchemaId :=
  let matching := (named.filter fun entry => entry.1 == key).map (·.2) ++
    (patterns.filter fun entry => entry.1.isMatch key).map (·.2)
  if matching.isEmpty then additional.toList else matching

/-- What a schema says of a value: it accepts it, rejects it, or the depth limit keeps it from saying. -/
inductive Outcome where
  | valid
  | invalid
  | undecided (issues : Report)

/-- The outcome of the issues of a schema. -/
def Outcome.ofReport (r : Report) : Outcome :=
  if r.isEmpty then .valid else if r.isDepthLimited then .undecided r else .invalid

/-- Goes through schemas until one accepts: then there is nothing to report. Otherwise gives the issues
of those that are undecided. -/
def firstValid (outcome : SchemaId → Outcome) : List SchemaId → Option Report
  | [] => some []
  | id :: rest =>
    match outcome id with
    | .valid => none
    | .invalid => firstValid outcome rest
    | .undecided issues => (firstValid outcome rest).map (issues ++ ·)

/-- Goes through schemas until two accept: then there is no single one. Otherwise says whether one
accepts, and gives the issues of those that are undecided. -/
def singleValid (outcome : SchemaId → Outcome) (found : Bool) : List SchemaId → Option (Bool × Report)
  | [] => some (found, [])
  | id :: rest =>
    match outcome id with
    | .valid => if found then none else singleValid outcome true rest
    | .invalid => singleValid outcome found rest
    | .undecided issues => (singleValid outcome found rest).map fun (one, more) => (one, issues ++ more)

/-- The issues of a constraint at a place, where `check` gives those of the schemas it refers to. -/
def Constraint.issues (check : SchemaId → Value → Pointer → Report) (c : Constraint) (v : Value)
    (p : Pointer) : Report :=
  let outcome (id : SchemaId) := Outcome.ofReport (check id v p)
  match c with
  | .items schemas additional =>
    v.elements.zipIdx.flatMap fun (element, index) =>
      match schemas.schemaAt? additional index with
      | some id => check id element (p.childIndex index)
      | none => []
  | .properties named patterns additional =>
    v.members.flatMap fun (key, member) =>
      (memberSchemas named patterns additional key).flatMap fun id => check id member (p.child key)
  | .allOf schemas =>
    schemas.flatMap fun id =>
      let r := check id v p
      if r.isEmpty || r.isDepthLimited then r else .broken p c :: r
  | .anyOf schemas =>
    match firstValid outcome schemas with
    | none => []
    | some undecided => if undecided.isEmpty then [.broken p c] else undecided
  | .oneOf schemas =>
    match singleValid outcome false schemas with
    | none => [.broken p c]
    | some (one, undecided) => if undecided.isEmpty then if one then [] else [.broken p c] else undecided
  | .not schema =>
    match outcome schema with
    | .valid => [.broken p c]
    | .invalid => []
    | .undecided issues => issues
  | _ => if c.holds v then [] else [.broken p c]

/-! ## Schemas -/

/-- The issues of a value at a place, where `remaining` levels may still be looked at and `limit` is the
depth limit. -/
def SchemaGraph.check (g : SchemaGraph) (limit : Nat) : Nat → SchemaId → Value → Pointer → Report
  | 0, _, _, p => [.tooDeep p limit]
  | remaining + 1, id, v, p => (g.node id).constraints.flatMap fun c => c.issues (g.check limit remaining) v p

/-- The issues of a value. -/
def Schema.validate (s : Schema) (maxDepth : Nat) (v : Value) : Report :=
  s.graph.check maxDepth (maxDepth + 1) s.id v .root

/-- A value that does not meet its schema. -/
structure InvalidValue where
  report : Report

/-- The whole message. -/
def InvalidValue.message (e : InvalidValue) : String :=
  "The value does not conform to the schema:\n" ++ e.report.toText

/-- Refuses a value with issues. -/
def Schema.requireValid (s : Schema) (maxDepth : Nat) (v : Value) : Except InvalidValue Unit :=
  let r := s.validate maxDepth v
  if r.isEmpty then .ok () else .error ⟨r⟩

end JsonSchema
