import JsonSchema.Proofs.Compile
import JsonSchema.Proofs.Compile.Complete

/-!
Schemas leave no keyword out (`compileValue_complete`). Each place that was compiled has a node that is complete, if the
meta-schema has accepted a schema document around it: then it accepts the schema document at the place too, only deeper
(`Within.admits`). Since the depth of the check stays above that of the construction, a document without references that
is accepted can fail for its regular expressions alone.

Documents at hand may have the same URI here, so a place may have been compiled for one document and be met again in
another. The record of a place (`Compilation.Entry`) therefore names the document that it was made for.
-/

namespace JsonSchema

open Vocabulary

/-! ### Around a place -/

/-- The schema documents in a schema document, with itself. What stands beside a reference is none. -/
inductive Within (v : Value) (p : Pointer) : Value → Pointer → Prop
  | self : Within v p v p
  | subschema {w u : Value} {q q' : Pointer} : Within v p w q → w.kind ≠ .reference → Subschema w q u q' →
      Within v p u q'

/-- A schema in a schema document is a node of the same graph. -/
theorem Subschema.graph {v w : Value} {p q : Pointer} (h : Subschema v p w q) : w.graph = v.graph := by
  cases h with
  | not hw => exact Value.graph_of_get? hw
  | items hw => exact Value.graph_of_get? hw
  | additionalItems _ _ hw => exact Value.graph_of_get? hw
  | additionalProperties hw => exact Value.graph_of_get? hw
  | element _ hw hm => exact (Value.graph_of_at? (Value.at?_of_mem_zipIdx hm)).trans (Value.graph_of_get? hw)
  | @member keyword name u _ _ hu hm =>
    obtain ⟨m, -, heq⟩ := List.mem_map.mp hm
    obtain rfl : u.atNode m.2 = w := (Prod.mk.inj heq).2
    have hgraph : u.graph = v.graph := Value.graph_of_get? hu
    exact hgraph

namespace Within

variable {v w u : Value} {p q q' : Pointer}

theorem cons (hr : v.kind ≠ .reference) (hs : Subschema v p w q) (h : Within w q u q') : Within v p u q' := by
  induction h with
  | self => exact .subschema .self hr hs
  | subschema _ hr' hs' ih => exact .subschema ih hr' hs'

theorem graph (h : Within v p w q) : w.graph = v.graph := by
  induction h with
  | self => rfl
  | subschema _ _ hs ih => exact hs.graph.trans ih

/-- What is within an accepted schema document is accepted somewhere below. -/
theorem admits {maxDepth : Nat} (h : Within v p w q) (hv : metaSchema.validate maxDepth v = []) :
    Admits maxDepth w := by
  induction h with
  | self => exact ⟨0, accepts_of_validate hv⟩
  | subschema _ _ hs ih =>
    obtain ⟨depth, ha⟩ := ih
    obtain ⟨deeper, -, ha⟩ := ha.subschema hs
    exact ⟨deeper, ha⟩

end Within

/-- Where the construction enters a document: at its root, and where references lead. -/
inductive EntryPoint (leads : Leads) (document : Document) : Value → Document → Pointer → Prop
  | root : EntryPoint leads document document.root document .root
  | target {v : Value} {d : Document} {p : Pointer} {t : Target} : Visited leads document v d p →
      v.kind = .reference → leads v d t → EntryPoint leads document t.value t.document t.pointer

/-- Every place that is visited is within an entry point. -/
theorem Visited.within {leads : Leads} {document d : Document} {v : Value} {p : Pointer}
    (h : Visited leads document v d p) : ∃ e q, EntryPoint leads document e d q ∧ Within e q v p := by
  induction h with
  | root => exact ⟨_, _, .root, .self⟩
  | subschema _ hr hs ih =>
    obtain ⟨e, q, he, hw⟩ := ih
    exact ⟨e, q, he, .subschema hw hr hs⟩
  | target hv hr ht => exact ⟨_, _, .target hv hr ht, .self⟩

/-! ### The record of places -/

/-- The places whose nodes are not filled yet, with these. -/
abbrev Unfilled := SchemaId → Value → Document → Pointer → Prop

/-- The places whose nodes are not filled, with one more. -/
def Unfilled.insert (opens : Unfilled) (id : SchemaId) (v : Value) (d : Document) (p : Pointer) : Unfilled :=
  fun i w e q => (i = id ∧ w = v ∧ e = d ∧ q = p) ∨ opens i w e q

namespace Compilation

/-- What is recorded of a place: it is a reference and has the node of what it leads to, or its node is not filled
yet, or its node holds what the keywords denote, with regular expressions up to a limit. -/
inductive Entry (r : Resolver) (document : Document) (limit : Nat) (opens : Unfilled) (x : Compilation) :
    Location → SchemaId → Prop
  | reference {v : Value} {d : Document} {p : Pointer} {t : Target} {id : SchemaId} :
      Visited (r.Settled x.store) document v d p → v.kind = .reference → r.Settled x.store v d t →
      (t.location, id) ∈ x.known → Entry r document limit opens x (d.location p) id
  | unfilled {v : Value} {d : Document} {p : Pointer} {id : SchemaId} :
      Visited (r.Settled x.store) document v d p → v.kind ≠ .reference → opens id v d p →
      Entry r document limit opens x (d.location p) id
  | filled {v : Value} {d : Document} {p : Pointer} {id : SchemaId} {k : Compiled} :
      Visited (r.Settled x.store) document v d p → v.kind ≠ .reference → (∀ w e q, ¬opens id w e q) →
      x.builder.nodes[id.index]? = some (k.node v) → (x.nodes d).Denotes v p limit k →
      Entry r document limit opens x (d.location p) id

/-- Every place that is known is recorded, and the nodes that are not filled are told apart from the others. -/
structure Recorded (r : Resolver) (document : Document) (limit : Nat) (opens : Unfilled) (x : Compilation) :
    Prop where
  entry : ∀ {l id}, (l, id) ∈ x.known → Entry r document limit opens x l id
  bound : ∀ {id v d p}, opens id v d p → 0 < id.index ∧ id.index < x.builder.nodes.size
  empty : x.builder.nodes[0]? = some ({} : SchemaNode)
  never : ∀ {id}, x.builder.never? = some id → (∀ v d p, ¬opens id v d p) ∧
    x.builder.nodes[id.index]? = some { constraints := [.not .empty] }

variable {r : Resolver} {document d : Document} {limit : Nat} {opens opens' : Unfilled} {x x' : Compilation}
  {l : Location} {id : SchemaId} {v : Value} {p : Pointer}

theorem Entry.mono (h : Entry r document limit opens x l id) (hg : x.Advances x')
    (hopens : ∀ {v d p}, opens id v d p → opens' id v d p)
    (hnode : ∀ node, (∀ v d p, ¬opens id v d p) → x.builder.nodes[id.index]? = some node →
      (∀ v d p, ¬opens' id v d p) ∧ x'.builder.nodes[id.index]? = some node) :
    Entry r document limit opens' x' l id := by
  cases h with
  | reference hv hr ht hid => exact .reference (hv.grow hg.store) hr (ht.mono hg.store) (hg.known hid)
  | unfilled hv hr ho => exact .unfilled (hv.grow hg.store) hr (hopens ho)
  | filled hv hr ho hn hc =>
    obtain ⟨ho', hn'⟩ := hnode _ ho hn
    exact .filled (hv.grow hg.store) hr ho' hn' (hc.mono (hg.nodes _))

/-- Places may be added to those that are known. -/
theorem Recorded.extend (h : Recorded r document limit opens x) (hg : x.Advances x')
    (hb : x'.builder = x.builder)
    (hknown : ∀ {l id}, (l, id) ∈ x'.known → (l, id) ∈ x.known ∨ Entry r document limit opens x' l id) :
    Recorded r document limit opens x' := by
  refine ⟨fun hl => ?_, fun ho => hb ▸ h.bound ho, hb ▸ h.empty, fun hn => hb ▸ h.never (hb ▸ hn)⟩
  rcases hknown hl with hl | hl
  · exact (h.entry hl).mono hg id fun node ho hn => ⟨ho, hb ▸ hn⟩
  · exact hl

theorem advances_opened (x : Compilation) (place : Location) : x.Advances (x.opened place) :=
  ⟨.refl _, fun hk => List.mem_cons_of_mem _ hk, id⟩

theorem advances_closed (x : Compilation) (id : SchemaId) (node : SchemaNode) : x.Advances (x.closed id node) :=
  ⟨.refl _, fun hk => hk, fun hn => hn⟩

theorem advances_forbidding (hn : x.builder.never? = none) : x.Advances x.forbidding :=
  ⟨.refl _, fun hk => hk, fun hid => by cases hn.symm.trans hid⟩

/-- A place that is opened gets the next node. -/
theorem Recorded.opened (h : Recorded r document limit opens x)
    (hv : Visited (r.Settled x.store) document v d p) (hr : v.kind ≠ .reference) :
    Recorded r document limit (Unfilled.insert opens ⟨x.builder.nodes.size⟩ v d p) (x.opened (d.location p)) := by
  have hsize := size_opened x (d.location p)
  have hpos : 0 < x.builder.nodes.size := (Array.getElem?_eq_some_iff.mp h.empty).1
  -- a node that was there before is none of the place, and stays what it is
  have hold : ∀ {i : SchemaId} {node}, (∀ w e q, ¬opens i w e q) → x.builder.nodes[i.index]? = some node →
      (∀ w e q, ¬Unfilled.insert opens ⟨x.builder.nodes.size⟩ v d p i w e q) ∧
        (x.opened (d.location p)).builder.nodes[i.index]? = some node := by
    intro i node ho hn
    have hlt := (Array.getElem?_eq_some_iff.mp hn).1
    refine ⟨fun w e q ho' => ?_, ?_⟩
    · rcases ho' with ⟨rfl, -⟩ | ho'
      · exact Nat.lt_irrefl _ hlt
      · exact ho w e q ho'
    · rw [nodes_opened, if_neg (Nat.ne_of_lt hlt)]
      exact hn
  refine ⟨fun {l i} hl => ?_, fun {i w e q} ho => ?_, ?_, fun hn => ?_⟩
  · rcases List.mem_cons.mp hl with heq | hl
    · obtain ⟨rfl, rfl⟩ := Prod.mk.inj heq
      exact .unfilled hv hr (.inl ⟨rfl, rfl, rfl, rfl⟩)
    · exact (h.entry hl).mono (advances_opened x _) .inr fun node => hold
  · rcases ho with ⟨rfl, -⟩ | ho
    · exact ⟨hpos, hsize ▸ Nat.lt_succ_self _⟩
    · exact ⟨(h.bound ho).1, hsize ▸ Nat.lt_succ_of_lt (h.bound ho).2⟩
  · rw [nodes_opened, if_neg (Nat.ne_of_lt hpos)]
    exact h.empty
  · obtain ⟨ho, hnode⟩ := h.never hn
    exact hold ho hnode

/-- A place is closed with what its keywords denote. -/
theorem Recorded.closed {k : Compiled} (h : Recorded r document limit (Unfilled.insert opens id v d p) x)
    (hne : ∀ {i w e q}, opens i w e q → i ≠ id) (hc : (x.nodes d).Denotes v p limit k) :
    Recorded r document limit opens (x.closed id (k.node v)) := by
  obtain ⟨hpos, hlt⟩ := h.bound (.inl ⟨rfl, rfl, rfl, rfl⟩)
  -- the nodes that are filled or accept nothing are other ones
  have hold : ∀ {i : SchemaId} {node'}, (∀ w e q, ¬Unfilled.insert opens id v d p i w e q) →
      x.builder.nodes[i.index]? = some node' →
      (∀ w e q, ¬opens i w e q) ∧ (x.closed id (k.node v)).builder.nodes[i.index]? = some node' := by
    intro i node' ho hn
    refine ⟨fun w e q ho' => ho w e q (.inr ho'), ?_⟩
    rw [nodes_closed, if_neg]
    · exact hn
    · intro hindex
      obtain rfl : id = i := congrArg SchemaId.mk hindex
      exact ho v d p (.inl ⟨rfl, rfl, rfl, rfl⟩)
  refine ⟨fun {l i} hl => ?_, fun ho => ?_, ?_, fun hn => ?_⟩
  · cases h.entry hl with
    | reference hv hr ht hid => exact .reference hv hr ht hid
    | unfilled hv hr ho =>
      rcases ho with ⟨rfl, rfl, rfl, rfl⟩ | ho
      · refine .filled hv hr (fun w e q ho => hne ho rfl) ?_ hc
        rw [nodes_closed, if_pos rfl, Array.getElem?_eq_getElem hlt]
        rfl
      · exact .unfilled hv hr ho
    | filled hv hr ho hn hc' =>
      obtain ⟨ho', hn'⟩ := hold ho hn
      exact .filled hv hr ho' hn' hc'
  · rw [size_closed]
    exact h.bound (.inr ho)
  · rw [nodes_closed, if_neg (Nat.ne_of_gt hpos)]
    exact h.empty
  · obtain ⟨ho, hnode⟩ := h.never hn
    exact hold ho hnode

/-- The node that accepts nothing is added once. -/
theorem Recorded.never_run (h : Recorded r document limit opens x)
    (hrun : building SchemaBuilder.never x = (.ok id, x')) :
    Recorded r document limit opens x' ∧ x.Advances x' ∧ x'.builder.never? = some id := by
  rcases never_cases hrun with ⟨hn, rfl⟩ | ⟨hn, rfl, rfl⟩
  · exact ⟨h, .refl x', hn⟩
  · have hg := advances_forbidding hn
    have hold : ∀ {i : Nat} {node}, x.builder.nodes[i]? = some node → x.forbidding.builder.nodes[i]? = some node := by
      intro i node hnode
      rw [nodes_forbidding, if_neg (Nat.ne_of_lt (Array.getElem?_eq_some_iff.mp hnode).1)]
      exact hnode
    refine ⟨⟨fun hl => (h.entry hl).mono hg (fun ho => ho) fun node ho hnode => ⟨ho, hold hnode⟩,
      fun ho => ⟨(h.bound ho).1, ?_⟩, hold h.empty, fun {i} hid => ?_⟩, hg, rfl⟩
    · exact Nat.lt_of_lt_of_eq (Nat.lt_succ_of_lt (h.bound ho).2) (Array.size_push _).symm
    · cases hid
      exact ⟨fun v d p ho => Nat.lt_irrefl _ (h.bound ho).2, by rw [nodes_forbidding, if_pos rfl]⟩

end Compilation

/-! ### Runs of the compiler -/

namespace Compiler

open Compilation

variable {c : Compiler} {document d : Document} {remaining : Nat} {v w : Value} {p q : Pointer} {e : SchemaError}

/-- How the construction may fail at a place: where there are no references and the meta-schema still accepts the
schema document when the construction has come to its limit, only a regular expression can be wrong. -/
def Fails (c : Compiler) (remaining : Nat) (v : Value) (d : Document) (p : Pointer) (e : SchemaError) : Prop :=
  (∀ w q, Within v p w q → w.kind ≠ .reference) →
    (∃ depth, Accepts c.limits.maxDepth depth schema v ∧ c.limits.maxDepth < remaining + depth) →
    ∃ place pattern fault, e = .invalidPattern d.label place pattern fault

/-- What fails in a schema document, with one level less, fails around it. -/
theorem Fails.subschema (hr : v.kind ≠ .reference) (hs : Subschema v p w q) (h : c.Fails remaining w d q e) :
    c.Fails (remaining + 1) v d p e := by
  rintro hnone ⟨depth, ha, hdepth⟩
  obtain ⟨deeper, hlt, haw⟩ := ha.subschema hs
  exact h (fun u q' hu => hnone u q' (hu.cons hr hs)) ⟨deeper, haw, by omega⟩

theorem Fails.reference (hr : v.kind = .reference) : c.Fails remaining v d p e :=
  fun hnone => absurd hr (hnone v p .self)

theorem fails_zero : c.Fails 0 v d p e := by
  rintro - ⟨depth, ha, hdepth⟩
  have hle := ha.le
  omega

/-- A state in which places are recorded, where a place is visited. -/
def At (c : Compiler) (document : Document) (opens : Unfilled) (v : Value) (d : Document) (p : Pointer)
    (x : Compilation) : Prop :=
  Recorded c.resolver document c.limits.maxRegexLength opens x ∧ Visited (c.resolver.Settled x.store) document v d p

variable {opens : Unfilled} {x x' : Compilation} {id : SchemaId}

theorem At.known (h : c.At document opens v d p x) (hk : x.known.lookup (d.location p) = some id) :
    c.At document opens v d p x ∧ x.Advances x ∧ (x.nodes d).place p id :=
  ⟨h, .refl x, mem_of_lookup hk⟩

theorem At.reference (ih : ∀ opens v d p, Runs (c.At document opens v d p) (c.Fails remaining v d p)
      (c.node remaining v d p) fun x id => (x.nodes d).place p id)
    (h : c.At document opens v d p x) (hk : x.known.lookup (d.location p) = none) (hr : v.kind = .reference)
    (hrun : c.node (remaining + 1) v d p x = (.ok id, x')) :
    c.At document opens v d p x' ∧ x.Advances x' ∧ (x'.nodes d).place p id := by
  obtain ⟨t, s, checked, x₁, hresolve, -, hnode, rfl⟩ := node_reference hk hr hrun
  have hsteady := c.resolver.closed_steady.resolve v d
  have hload : x.Advances { x with store := s, checked } := ⟨hsteady.grows_of_eq hresolve, fun hk => hk, fun hn => hn⟩
  have h₀ : Recorded c.resolver document c.limits.maxRegexLength opens { x with store := s, checked } :=
    h.1.extend hload rfl fun hl => .inl hl
  have ht : c.resolver.Settled s v d t := hsteady.again hresolve (.refl _)
  obtain ⟨⟨h₁, -⟩, hg₁, hplace⟩ := (ih opens _ _ _).answers ⟨h₀, .target (h.2.grow hload.store) hr ht⟩ hnode
  have henter : x₁.Advances { x₁ with known := (d.location p, id) :: x₁.known } :=
    ⟨.refl _, fun hk => List.mem_cons_of_mem _ hk, fun hn => hn⟩
  have hg := (hload.trans hg₁).trans henter
  refine ⟨⟨h₁.extend henter rfl fun {l i} hl => ?_, h.2.grow hg.store⟩, hg, List.mem_cons_self⟩
  rcases List.mem_cons.mp hl with heq | hl
  · obtain ⟨rfl, rfl⟩ := Prod.mk.inj heq
    exact .inr (.reference (h.2.grow hg.store) hr (ht.mono (hg₁.trans henter).store) (henter.known hplace))
  · exact .inl hl

/-- The keywords at a place that was opened, compiled with one level less. -/
theorem runs_source (ih : ∀ opens v d p, Runs (c.At document opens v d p) (c.Fails remaining v d p)
      (c.node remaining v d p) fun x id => (x.nodes d).place p id) (hr : v.kind ≠ .reference) :
    Runs (c.At document opens v d p) (c.Fails (remaining + 1) v d p) (c.source remaining v d p).node
      fun x node => ∃ k : Compiled, node = k.node v ∧ (x.nodes d).Denotes v p c.limits.maxRegexLength k := by
  refine SchemaSource.runs_node (fun w q hs => ⟨fun hg hk => hg.known hk, fun hI hrun => ?_, fun hI hrun => ?_⟩)
    (fun _ => ⟨fun hg hn => hg.never hn, fun hI hrun => ?_, fun _ hrun => by cases hrun⟩)
    fun text place e _ he _ _ => ⟨place, text, SchemaSource.regex_eq_error he⟩
  · obtain ⟨⟨h', -⟩, hg, hplace⟩ := (ih opens w d q).answers ⟨hI.1, .subschema hI.2 hr hs⟩ hrun
    exact ⟨⟨h', hI.2.grow hg.store⟩, hg, hplace⟩
  · exact ((ih opens w d q).fails ⟨hI.1, .subschema hI.2 hr hs⟩ hrun).subschema hr hs
  · obtain ⟨h', hg, hn⟩ := hI.1.never_run hrun
    exact ⟨⟨h', hI.2.grow hg.store⟩, hg, hn⟩

theorem runs_node (c : Compiler) (document : Document) (remaining : Nat) (opens : Unfilled) (v : Value) (d : Document)
    (p : Pointer) : Runs (c.At document opens v d p) (c.Fails remaining v d p) (c.node remaining v d p)
      fun x id => (x.nodes d).place p id := by
  induction remaining generalizing opens v d p with
  | zero =>
    refine ⟨fun hg hk => hg.known hk, fun {x x' id} h hrun => ?_, fun _ _ => fails_zero⟩
    cases hk : x.known.lookup (d.location p) with
    | some id' =>
      cases (node_of_known hk).symm.trans hrun
      exact h.known hk
    | none => cases (node_zero hk).symm.trans hrun
  | succ remaining ih =>
    refine ⟨fun hg hk => hg.known hk, fun {x x' id} h hrun => ?_, fun {x x' e} h hrun => ?_⟩
    · cases hk : x.known.lookup (d.location p) with
      | some id' =>
        cases (node_of_known hk).symm.trans hrun
        exact h.known hk
      | none =>
        by_cases hr : v.kind = .reference
        · exact h.reference ih hk hr hrun
        · obtain ⟨rfl, node, x₁, hnode, rfl⟩ := node_plain hk hr hrun
          have hopen := h.1.opened h.2 hr
          obtain ⟨⟨h₁, hv₁⟩, hg₁, k, rfl, hk⟩ := (runs_source ih hr).answers ⟨hopen, h.2⟩ hnode
          have hg := ((advances_opened x (d.location p)).trans hg₁).trans
            (advances_closed x₁ ⟨x.builder.nodes.size⟩ (k.node v))
          refine ⟨⟨h₁.closed (fun ho heq => ?_) hk, hv₁⟩, hg, hg₁.known List.mem_cons_self⟩
          subst heq
          exact Nat.lt_irrefl _ (h.1.bound ho).2
    · cases hk : x.known.lookup (d.location p) with
      | some id' => cases (node_of_known hk).symm.trans hrun
      | none =>
        by_cases hr : v.kind = .reference
        · exact .reference hr
        · exact (runs_source ih hr).fails ⟨h.1.opened h.2 hr, h.2⟩ (node_plain_error hk hr hrun)

/-- A check of what the meta-schema accepts passes. -/
theorem check_of_valid (h : metaSchema.validate c.limits.maxDepth v = []) (d : Document) (p : Pointer)
    (x : Compilation) : (c.check v d p x).1 = .ok ⟨⟩ := by
  rw [check_eq]
  split
  · rfl
  · exact finding_eq_ok_iff.2 h

end Compiler

/-! ### Complete schemas -/

/-- What a schema holds of a document. The root has the schema itself, and each place that has a node is visited from
an entry point. A reference has the node of a place that it leads to. The node of any other place is complete, if the
meta-schema accepts a schema document that the place is within, such as the one at the entry point. -/
structure Schema.Complete (s : Schema) (leads : Leads) (document : Document) (maxDepth : Nat)
    (place : Location → SchemaId → Prop) (never : SchemaId → Prop) : Prop where
  root : place (document.location .root) s.id
  compiled : ∀ {l id}, place l id → ∃ v d p, l = d.location p ∧
    (∃ e q, EntryPoint leads document e d q ∧ Within e q v p) ∧
    (v.kind = .reference → ∃ t, leads v d t ∧ place t.location id) ∧
    (v.kind ≠ .reference → ∃ node, s.graph.nodes[id.index]? = some node ∧
      ∀ e q, Within e q v p → metaSchema.validate maxDepth e = [] →
        JsonSchema.Complete ⟨fun q id => place (d.location q) id, never⟩ v p node)
  never : ∀ {id}, never id → s.graph.nodes[id.index]? = some { constraints := [.not .empty] }

namespace Compiler

open Compilation

variable {c : Compiler} {document : Document} {store after : Store} {s : Schema} {e : SchemaError}

theorem at_start (c : Compiler) (document : Document) (store : Store) (checked : List Location) :
    c.At document (fun _ _ _ _ => False) document.root document .root { start store with checked } :=
  ⟨⟨fun hl => (by cases hl), fun ho => ho.elim, rfl, fun hn => (by cases hn)⟩, .root⟩

/-- A compilation that fails although the document is accepted does so after the check. -/
theorem compile_eq_error (hvalid : metaSchema.validate c.limits.maxDepth document.root = [])
    (hrun : c.compile document store = (.error e, after)) :
    ∃ checked x, c.check document.root document .root (start (store.opened document)) =
        (.ok ⟨⟩, { start (store.opened document) with checked }) ∧
      c.node (c.limits.maxDepth + 1) document.root document .root { start (store.opened document) with checked } =
        (.error e, x) := by
  cases hwork : (c.check document.root document .root >>= fun _ =>
      c.node (c.limits.maxDepth + 1) document.root document .root) (start (store.opened document)) with
  | mk result x =>
    rw [compile_run hwork] at hrun
    cases result with
    | ok id => cases hrun
    | error e' =>
      cases hrun
      obtain ⟨checked, hx⟩ := c.check_run document.root document .root (start (store.opened document))
      have hcheck : c.check document.root document .root (start (store.opened document)) =
          (.ok ⟨⟩, { start (store.opened document) with checked }) := Prod.ext (check_of_valid hvalid _ _ _) hx
      rw [run_bind_of_ok hcheck] at hwork
      exact ⟨checked, x, hcheck, hwork⟩

/-- The compilation of a value is that of its document. -/
theorem compileValue_eq (c : Compiler) (store : Store) {v : Value} {uri? : Option String}
    (hd : Document.given v uri? = .ok document) : document.root = v ∧
    c.compileValue v uri? store = c.compile document store := by
  rcases Document.given_cases hd with ⟨rfl, rfl⟩ | ⟨text, uri, rfl, hp, rfl⟩
  · exact ⟨rfl, rfl⟩
  · refine ⟨rfl, ?_⟩
    rw [compileValue, hp]
    rfl

end Compiler

end JsonSchema
