import JsonSchema.Json.Text
import JsonSchema.Value

/-!
The text of a value: compact JSON in the order of the members, where a place that leads back to an array
or object around it is a mark.
-/

namespace JsonSchema

/-- The mark for a place that leads back to one of its ancestors. -/
def cycleMark : String := "<cycle>"

/-- The text of a node below the given ancestors. An ancestor is never entered again, so `fuel` for every
node is enough. -/
def Graph.text (g : Graph) (ancestors : List Nat) (id : Nat) (fuel : Nat) : String :=
  match g.node id with
  | .null => "null"
  | .boolean b => if b then "true" else "false"
  | .integer i => toString i.toInt
  | .number x => x.toText
  | .string s => Json.quote s
  | node =>
    if ancestors.contains id then cycleMark
    else match fuel with
      | 0 => cycleMark
      | fuel + 1 =>
        match node with
        | .array items => Json.bracketed "[" "]" (items.map fun child => g.text (id :: ancestors) child fuel)
        | node => Json.bracketed "\x7b" "\x7d"
            (node.members.map fun (key, child) => Json.quote key ++ ":" ++ g.text (id :: ancestors) child fuel)
termination_by structural fuel

/-- The text of a value. -/
def Value.toText (v : Value) : String := v.graph.text [] v.id v.graph.nodes.size

instance : ToString Value := ⟨Value.toText⟩

end JsonSchema
