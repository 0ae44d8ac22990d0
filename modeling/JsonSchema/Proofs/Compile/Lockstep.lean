import JsonSchema.Proofs.Compile.Construction

/-!
Two runs of the compiler on the same values. A place is compiled in step in two settings if the things on which the
construction depends are in step at each place that is visited (`Compiler.InStep`): what is known of places, the check of
entry points, regular expressions and the resolution of references (`Compiler.InStep.relates_node`).
-/

namespace JsonSchema

open Compilation

namespace Compiler

/-- Two settings in which schemas are made in step. `places` says which values, with their documents in both settings,
are compiled at which places. -/
structure InStep (m : Lockstep Compilation Compilation SchemaError SchemaError) (c c' : Compiler)
    (places : Value → Document → Document → Pointer → Prop) : Prop where
  known : ∀ {x x' v d d' p}, m.states x x' → places v d d' p →
    x'.known.lookup (d'.location p) = x.known.lookup (d.location p)
  enter : ∀ {v d d' p}, places v d d' p → ∀ id, m.Relates (· = ·) (enter (d.location p) id) (enter (d'.location p) id)
  building : ∀ {α : Type} (change : SchemaBuilder → α × SchemaBuilder),
    m.Relates (· = ·) (building change) (building change)
  subschema : ∀ {v d d' p w q}, places v d d' p → v.kind ≠ .reference → Subschema v p w q → places w d d' q
  resolve : ∀ {v d d' p}, places v d d' p → v.kind = .reference →
    m.Relates (fun t t' => t'.value = t.value ∧ t'.pointer = t.pointer ∧ places t.value t.document t'.document t.pointer)
      (resolving (c.resolver.resolve v d)) (resolving (c'.resolver.resolve v d'))
  check : ∀ {v d d' p}, places v d d' p → m.Relates (· = ·) (c.check v d p) (c'.check v d' p)
  regex : ∀ {v d d' p}, places v d d' p → ∀ remaining remaining' text place,
    m.Relates (· = ·) (liftM ((c.source remaining v d p).regex text place))
      (liftM ((c'.source remaining' v d' p).regex text place))
  deep : ∀ {v d d' p}, places v d d' p →
    m.errors (.tooDeep d.label p c.limits.maxDepth) (.tooDeep d'.label p c'.limits.maxDepth)

variable {m : Lockstep Compilation Compilation SchemaError SchemaError} {c c' : Compiler}
  {places : Value → Document → Document → Pointer → Prop} {v : Value} {d d' : Document} {p : Pointer}

namespace InStep

variable {remaining remaining' : Nat} (h : InStep m c c' places)

include h

/-- The constructions are in step, at places with equal values. -/
theorem construction :
    c.construction.InStep m (· = ·) c'.construction fun v d v' d' p => v = v' ∧ places v d d' p where
  likeness := Value.likeness_eq
  value hp := hp.1
  known hx hp := h.known hx hp.2
  enter hp := h.enter hp.2
  allocate := h.building _
  never := h.building _
  fill id hnode := by
    cases hnode.eq
    exact h.building _
  subschema := by
    rintro v d _ d' p w _ q ⟨rfl, hp⟩ hr rfl hs -
    exact ⟨rfl, h.subschema hp hr hs⟩
  resolve := by
    rintro v d _ d' p ⟨rfl, hp⟩ hr
    exact (h.resolve hp hr).weaken fun t t' ⟨hvalue, hpointer, ht⟩ => ⟨hpointer, hvalue.symm, ht⟩
  check := by
    rintro v d _ d' p ⟨rfl, hp⟩
    exact h.check hp
  regex := by
    rintro v d _ d' p text place ⟨rfl, hp⟩ - -
    exact h.regex hp 0 0 text place
  deep hp := h.deep hp.2

/-- **A place is compiled in step**, with the same number of levels left, or with more of them in the second setting if
it may succeed where the first one fails. -/
theorem relates_node (hlevels : remaining = remaining' ∨ remaining ≤ remaining' ∧ ∀ e, m.excused e)
    (hp : places v d d' p) : m.Relates (· = ·) (c.node remaining v d p) (c'.node remaining' v d' p) := by
  rw [← node_construction, ← node_construction]
  exact h.construction.relates_node hlevels ⟨rfl, hp⟩

/-- The check and the construction of a whole document are in step. -/
theorem relates_work (hlevels : remaining = remaining' ∨ remaining ≤ remaining' ∧ ∀ e, m.excused e)
    (hp : places v d d' p) :
    m.Relates (· = ·) (c.check v d p >>= fun _ => c.node remaining v d p)
      (c'.check v d' p >>= fun _ => c'.node remaining' v d' p) :=
  (h.check hp).bind_eq fun _ => h.relates_node hlevels hp

end InStep

end Compiler

end JsonSchema
