import JsonSchema.Proofs.Compile.Approved
import JsonSchema.Proofs.Reordered.Keywords

/-!
The order of members in a schema document does not decide what schema it becomes, only at which depth its places are
compiled. If a schema was made of one of two documents that differ in the order of members alone, then the construction
of the other comes to the same places, which make no trouble there either (`Compiler.Finished.safe`); so it succeeds, or
it comes to the depth limit, because a place is compiled at the depth where it is met first. If both succeed, the nodes
at the same places hold the same constraints, up to the numbers of nodes, and the schemas give the same verdicts
(`Compiler.Finished.verdict`).

This takes an environment in which every document is also found under its own URI (`Resolver.Consistent`): otherwise the
order of members decides which documents are at hand when a URI is looked up.
-/

namespace JsonSchema

open Vocabulary

namespace Compiler

open Compilation

variable {c : Compiler} {origin origin' : Store} {document document' d e : Document} {x x' : Compilation}
  {v w : Value} {p q : Pointer} {l : Location} {root root' id id' : SchemaId}

/-! ### Constructions that have come to their end -/

/-- A construction that has come to its end: every place is recorded and filled, and the root has a node. -/
structure Finished (c : Compiler) (origin : Store) (document : Document) (x : Compilation) (root : SchemaId) :
    Prop where
  recorded : Recorded c.resolver document c.limits.maxRegexLength (fun _ _ _ _ => False) x
  approved : c.Approved origin document x
  root : (document.location .root, root) ∈ x.known

/-- What there is at a place that has a node. -/
inductive Filled (c : Compiler) (document : Document) (x : Compilation) (v : Value) (d : Document) (p : Pointer)
    (id : SchemaId) : Prop
  | reference {t : Target} : v.kind = .reference → c.resolver.Settled x.store v d t → (t.location, id) ∈ x.known →
      Filled c document x v d p id
  | plain {k : Compiled} : v.kind ≠ .reference → x.builder.nodes[id.index]? = some (k.node v) →
      (x.nodes d).Denotes v p c.limits.maxRegexLength k → Filled c document x v d p id

theorem Finished.place (h : c.Finished origin document x root) (hl : (l, id) ∈ x.known) : ∃ v d p,
    l = d.location p ∧ Visited (c.resolver.Settled x.store) document v d p ∧ c.Filled document x v d p id := by
  cases h.recorded.entry hl with
  | reference hv hr ht hid => exact ⟨_, _, _, rfl, hv, .reference hr ht hid⟩
  | unfilled _ _ ho => exact ho.elim
  | filled hv hr _ hn hk => exact ⟨_, _, _, rfl, hv, .plain hr hn hk⟩

/-! ### Places that are met in another order -/

/-- The place has a node in a construction of the document up to the order of members. -/
structure Mirrored (x : Compilation) (document : Document) (w : Value) (e : Document) (q : Pointer) : Prop where
  known : ∃ id, (e.location q, id) ∈ x.known
  document : ∃ d, x.store.cache.AtHand document d ∧ d.Reordered e
  owns : e.Owns w
  below : e.root.below? q.atoms = some w

theorem Finished.mirrored (he : c.resolver.Orderly origin document) (h : c.Finished origin document x root)
    (hm : Mirrored x document w e q) : ∃ v d id, Visited (c.resolver.Settled x.store) document v d q ∧
      v.Reordered w ∧ d.Reordered e ∧ c.Filled document x v d q id := by
  obtain ⟨id, hid⟩ := hm.known
  obtain ⟨v, d, p, heq, hv, hfilled⟩ := h.place hid
  obtain ⟨d', hat', hde⟩ := hm.document
  obtain ⟨huri, rfl⟩ := Location.mk.inj heq
  obtain ⟨hat, -, hb⟩ := hv.atHand h.approved.faithful.wellFormed
  have hdd' : d.Reordered d' := Resolver.Faithful.reordered_of_uriText he.loader (.refl he.wellFormed) he.consistent
    he.located (.refl (he.wellFormed _ (.inl rfl))) h.approved.faithful h.approved.faithful hat hat'
    (huri.symm.trans hde.uriText)
  have hreordered := hdd'.trans hde
  obtain ⟨w', hw', hvw⟩ := hreordered.root.below? hb
  cases hw'.symm.trans hm.below
  exact ⟨v, d, id, hv, hvw, hreordered, hfilled⟩

/-- What a construction of one document has come to makes no trouble in a construction of the other. -/
theorem Finished.safe (he : c.resolver.Orderly origin document) (ho : origin.Reordered origin')
    (hdocument : document.Reordered document') (hw : origin'.WellFormed document')
    (h : c.Finished origin document x root) : c.Safe origin' document' (Mirrored x document) := by
  refine ⟨fun {w e q u q'} hm hr hs => ?_, fun {w e q text} hm hr ht => ?_, fun {w e q s} hm hr hf => ?_⟩
  · obtain ⟨v, d, id, hv, hvw, hde, hfilled⟩ := h.mirrored he hm
    cases hfilled with
    | reference hr' => exact absurd (hvw.kind.trans hr') hr
    | plain _ _ hk =>
      obtain ⟨y, hy, -⟩ := hvw.symm.subschema hs
      obtain ⟨id', hid'⟩ := hk.place hy
      obtain ⟨hown, hbelow⟩ := hs.owns_below? hde.root.right hm.owns hm.below
      exact ⟨⟨id', by rwa [hde.location]⟩, ⟨d, (hv.atHand h.approved.faithful.wellFormed).1, hde⟩, hown, hbelow⟩
  · obtain ⟨v, d, id, hv, hvw, hde, hfilled⟩ := h.mirrored he hm
    cases hfilled with
    | reference hr' => exact absurd (hvw.kind.trans hr') hr
    | plain _ _ hk => exact hk.regex (hvw.symm.hasRegex ht)
  · obtain ⟨v, d, id, hv, hvw, hde, hfilled⟩ := h.mirrored he hm
    cases hfilled with
    | plain hr' => exact absurd (hvw.kind.symm.trans hr) hr'
    | @reference t hr' ht hid =>
      have he' := he.reordered ho hdocument hw
      have hfaithful := h.approved.faithful
      obtain ⟨u, s', hu, htu⟩ := Resolver.resolve_reordered he.loader ho hfaithful hf he'.consistent hvw hde ht
      have hvt : Visited (c.resolver.Settled x.store) document t.value t.document t.pointer := .target hv hr' ht
      have hnot := kind_of_settled hfaithful.wellFormed hv hr' ht
      obtain ⟨hfound, -⟩ := Resolver.resolve_found hu
      refine ⟨u, s', hu, ⟨⟨id, by rwa [show u.document.location u.pointer = t.location from htu.location]⟩,
        ⟨t.document, (hvt.atHand hfaithful.wellFormed).1, htu.document⟩,
        Document.owns_of_resolve hfound.value, Value.below?_of_resolve hfound.value⟩, ?_⟩
      exact ((h.approved.known hid).admits he hfaithful hvt hnot).reordered htu.value

/-! ### The same verdicts -/

section

variable {g g' : SchemaGraph} {maxDepth depth : Nat} {u : Value}

theorem verdict_of_node {node : SchemaNode} (hn : g.nodes[id.index]? = some node) (hd : depth ≤ maxDepth) :
    g.verdict maxDepth depth id u =
      .all (node.constraints.map fun k => k.verdict (g.verdict maxDepth (depth + 1)) u) := by
  rw [SchemaGraph.verdict, if_neg (by omega), SchemaGraph.node, hn, Option.getD_some]

/-- The node that accepts nothing says so, unless that is too deep. -/
theorem verdict_never (hempty : g.nodes[0]? = some ({} : SchemaNode))
    (hn : g.nodes[id.index]? = some { constraints := [.not .empty] }) :
    g.verdict maxDepth depth id u = if maxDepth < depth + 1 then .unknown else .invalid := by
  by_cases hd : maxDepth < depth
  · rw [SchemaGraph.verdict, if_pos hd, if_pos (by omega)]
  · rw [verdict_of_node hn (by omega)]
    split
    · next hlt =>
      rw [List.map_singleton, Constraint.verdict, SchemaGraph.verdict, if_pos hlt]
      rfl
    · next hle =>
      have hvalid : g.verdict maxDepth (depth + 1) .empty u = .valid := verdict_of_node hempty (by omega)
      rw [List.map_singleton, Constraint.verdict, hvalid]
      rfl

end

/-- What is visited and has a node is filled with it, up to the order of members. -/
theorem Finished.filled (he : c.resolver.Orderly origin document) (h : c.Finished origin document x root)
    (hv : Visited (c.resolver.Settled x.store) document v d p) (hid : (d.location p, id) ∈ x.known) :
    ∃ v' d', v.Reordered v' ∧ d.Reordered d' ∧ c.Filled document x v' d' p id := by
  obtain ⟨v', d', p', heq, hv', hfilled⟩ := h.place hid
  have hf := h.approved.faithful
  obtain ⟨hvv', hdd', rfl⟩ :=
    hv.reordered he (.refl he.wellFormed) (.refl (he.wellFormed _ (.inl rfl))) hf hf hv' heq
  exact ⟨v', d', hvv', hdd', hfilled⟩

section

variable {g g' : SchemaGraph} {maxDepth depth : Nat}

/-- Nodes at the same place say the same, if those of the schemas in it do. -/
theorem Finished.verdict_plain (h : c.Finished origin document x root) (h' : c.Finished origin' document' x' root')
    (hg : g.nodes = x.builder.nodes) (hg' : g'.nodes = x'.builder.nodes)
    (ih : ∀ {l id id'}, (l, id) ∈ x.known → (l, id') ∈ x'.known →
      SchemaId.Alike (g.verdict maxDepth (depth + 1)) (g'.verdict maxDepth (depth + 1)) id id')
    (hvw : v.Reordered w) (hde : d.Reordered e) (hr : v.kind ≠ .reference) (hv : c.Filled document x v d p id)
    (hw : c.Filled document' x' w e p id') (hd : depth ≤ maxDepth) :
    SchemaId.Alike (g.verdict maxDepth depth) (g'.verdict maxDepth depth) id id' := by
  cases hv with
  | reference hr' => exact absurd hr' hr
  | @plain k _ hn hk =>
    cases hw with
    | reference hr' => exact absurd (hvw.kind.symm.trans hr') hr
    | @plain k' _ hn' hk' =>
      intro u
      rw [verdict_of_node (hg ▸ hn) hd, verdict_of_node (hg' ▸ hn') hd]
      have halike := hk.alike (fun hid hid' => ih hid (by rwa [← hde.location])) hvw (fun {i i'} hi hi' u => ?_) hk'
      · exact all_congr_of_alike halike u
      · rw [verdict_never (hg ▸ h.recorded.empty) (hg ▸ (h.recorded.never hi).2),
          verdict_never (hg' ▸ h'.recorded.empty) (hg' ▸ (h'.recorded.never hi').2)]

/-- **The same places have nodes with the same verdicts.** -/
theorem Finished.verdict (he : c.resolver.Orderly origin document) (ho : origin.Reordered origin')
    (hdocument : document.Reordered document') (hw : origin'.WellFormed document')
    (h : c.Finished origin document x root) (h' : c.Finished origin' document' x' root')
    (hg : g.nodes = x.builder.nodes) (hg' : g'.nodes = x'.builder.nodes) (hid : (l, id) ∈ x.known)
    (hid' : (l, id') ∈ x'.known) : SchemaId.Alike (g.verdict maxDepth depth) (g'.verdict maxDepth depth) id id' := by
  induction hk : maxDepth + 1 - depth generalizing depth l id id' with
  | zero => exact fun u => by rw [SchemaGraph.verdict, SchemaGraph.verdict, if_pos (by omega), if_pos (by omega)]
  | succ k ih =>
    have hplain : ∀ {v w d e p id id'}, v.Reordered w → d.Reordered e → v.kind ≠ .reference →
        c.Filled document x v d p id → c.Filled document' x' w e p id' →
        SchemaId.Alike (g.verdict maxDepth depth) (g'.verdict maxDepth depth) id id' := fun hvw hde hr hv hw =>
      h.verdict_plain h' hg hg' (fun hid hid' => ih hid hid' (by omega)) hvw hde hr hv hw (by omega)
    have he' := he.reordered ho hdocument hw
    have hf := h.approved.faithful
    have hf' := h'.approved.faithful
    obtain ⟨v, d, p, rfl, hv, hfilled⟩ := h.place hid
    obtain ⟨w, e, q, heq, hw, hfilled'⟩ := h'.place hid'
    obtain ⟨hvw, hde, rfl⟩ := hv.reordered he ho hdocument hf hf' hw heq
    cases hfilled with
    | plain hr hn hk => exact hplain hvw hde hr (.plain hr hn hk) hfilled'
    | reference hr ht hid =>
      cases hfilled' with
      | plain hr' => exact absurd (hvw.kind.trans hr) hr'
      | reference hr' hu hid' =>
        -- both references lead to the same place
        obtain ⟨u, s, hu', htu⟩ := Resolver.resolve_reordered he.loader ho hf hf' he'.consistent hvw hde ht
        cases hu.symm.trans hu'
        obtain ⟨v', d', hv', hd', hfilled⟩ := h.filled he (.target hv hr ht) hid
        obtain ⟨w', e', hw', he', hfilled'⟩ := h'.filled he' (.target hw hr' hu) hid'
        rw [htu.pointer] at hfilled'
        have hr' : v'.kind ≠ .reference := by
          rw [hv'.kind]
          exact kind_of_settled hf.wellFormed hv hr ht
        have hvalue := hv'.symm.trans (htu.value.trans hw')
        exact hplain hvalue (hd'.symm.trans (htu.document.trans he')) hr' hfilled hfilled'

end

/-! ### Schemas -/

variable {store after : Store} {s : Schema} {error : SchemaError}

theorem approved_start (hw : origin.WellFormed document)
    (hvalid : metaSchema.validate c.limits.maxDepth document.root = []) :
    c.Ready origin document document.root document .root
      { start origin with checked := [document.location .root] } := by
  have ha := Admits.of_validate hvalid
  refine ⟨⟨Resolver.faithful_start hw, fun hl => (by cases hl), fun hl => ?_⟩, .root, fun _ => ha⟩
  obtain rfl := List.mem_singleton.mp hl
  exact ⟨_, _, _, rfl, .root, fun _ => ha⟩

/-- A compilation that answers has come to its end, and the document was accepted. -/
theorem finished_of_compile (he : c.resolver.Orderly (store.opened document) document)
    (hrun : c.compile document store = (.ok s, after)) :
    ∃ x, c.Finished (store.opened document) document x s.id ∧ s.graph.nodes = x.builder.nodes ∧
      metaSchema.validate c.limits.maxDepth document.root = [] := by
  obtain ⟨checked, id, x, hcheck, hnode, rfl, -⟩ := compile_eq_ok hrun
  rcases check_eq_ok hcheck with ⟨hmem, -⟩ | ⟨hvalid, hchecked⟩
  · cases hmem
  · obtain rfl : checked = [document.location .root] := congrArg Compilation.checked hchecked
    have hsafe : c.Safe (store.opened document) document fun _ _ _ => False :=
      ⟨fun h => h.elim, fun h => h.elim, fun h => h.elim⟩
    obtain ⟨⟨hrecorded, -⟩, -⟩ := (c.runs_node document _ _ _ _ _).answers (c.at_start document _ _) hnode
    obtain ⟨hready, -, hroot⟩ :=
      (runs_approved he hsafe _ _ _ _).answers (approved_start he.wellFormed hvalid) hnode
    exact ⟨x, ⟨hrecorded, hready.approved, hroot⟩, rfl, hvalid⟩

/-- A compilation where everything that is met was compiled in another order can fail for the depth alone. -/
theorem tooDeep_of_compile (he : c.resolver.Orderly (store.opened document) document)
    (ho : (store.opened document).Reordered (store.opened document')) (hdocument : document.Reordered document')
    (hw : (store.opened document').WellFormed document')
    (h : c.Finished (store.opened document) document x root)
    (hvalid : metaSchema.validate c.limits.maxDepth document.root = [])
    (hrun : c.compile document' store = (.error error, after)) : c.TooDeep error := by
  have hvalid' := ((Admits.of_validate hvalid).reordered hdocument.root).validate
  obtain ⟨checked, x', hcheck, hnode⟩ := compile_eq_error hvalid' hrun
  rcases check_eq_ok hcheck with ⟨hmem, -⟩ | ⟨-, hchecked⟩
  · cases hmem
  · obtain rfl : checked = [document'.location .root] := congrArg Compilation.checked hchecked
    have hsafe := h.safe he ho hdocument hw
    refine (runs_approved (he.reordered ho hdocument hw) hsafe _ _ _ _).fails (approved_start hw hvalid') hnode ?_
    have hknown : (document'.location .root, root) ∈ x.known := by
      rw [hdocument.location]
      exact h.root
    exact ⟨⟨root, hknown⟩, ⟨document, .inl rfl, hdocument⟩, document'.owns_root, rfl⟩

end Compiler

/-- The same document, opened in the same store. -/
theorem Document.Reordered.opened {store : Store} {document document' : Document} (hs : store.WellFormed document)
    (h : document.Reordered document') : (store.opened document).Reordered (store.opened document') := by
  unfold Store.opened
  rw [h.uri]
  cases document.uri? with
  | none => exact .refl hs
  | some uri =>
    have hinsert : ∀ (d : Document) (key : String), (store.cache.insertAs uri d).entries.lookup key =
        if key = Cache.key uri then some d else store.cache.entries.lookup key := fun d key =>
      Members.lookup_insert _ _ _ _
    refine ⟨rfl, fun {key d} hd => ?_, fun {key} hnone => ?_⟩
    · dsimp only at hd ⊢
      rw [hinsert] at hd ⊢
      by_cases hkey : key = Cache.key uri
      · rw [if_pos hkey] at hd ⊢
        cases hd
        exact ⟨_, rfl, h⟩
      · rw [if_neg hkey] at hd ⊢
        exact ⟨d, hd, .refl (hs d (.inr ⟨key, hd⟩))⟩
    · dsimp only at hnone ⊢
      rw [hinsert] at hnone ⊢
      by_cases hkey : key = Cache.key uri
      · rw [if_pos hkey] at hnone
        cases hnone
      · rw [if_neg hkey] at hnone ⊢
        exact hnone

namespace Compiler

variable {c : Compiler} {store after : Store} {v w : Value} {uri? : Option String} {document : Document} {s : Schema}

/-- The document of a value that differs in the order of members alone. -/
theorem given_reordered (hvw : v.Reordered w) (hd : Document.given v uri? = .ok document) :
    ∃ document', Document.given w uri? = .ok document' ∧ document.Reordered document' := by
  rcases Document.given_cases hd with ⟨rfl, rfl⟩ | ⟨text, uri, rfl, hp, rfl⟩
  · exact ⟨.anonymous w, rfl, rfl, hvw⟩
  · refine ⟨.retrieved uri w, ?_, rfl, hvw⟩
    rw [Document.given, hp]
    rfl

/-- A document that is opened is found under its URI. -/
theorem located_of_given (c : Compiler) (store : Store) (hv : v.graph.WellFormed)
    (hd : Document.given v uri? = .ok document) :
    document.uri? = none ∨ c.resolver.Locates (store.opened document) document := by
  rcases Document.given_cases hd with ⟨-, rfl⟩ | ⟨text, uri, -, -, rfl⟩
  · exact .inl rfl
  · have hentered : (store.opened (.retrieved uri v)).cache.entries.lookup (Cache.key uri) =
        some (.retrieved uri v) := (Members.lookup_insert _ _ _ _).trans (if_pos rfl)
    exact .inr ⟨uri, _, rfl, .cached hentered, .refl hv⟩

/-- **The order of members does not decide what schema a document becomes.** In an environment where every document is
also found under its own URI, if a value becomes a schema, then a value that differs only in the order of members
becomes a schema too, unless the construction comes to the depth limit; and both schemas give the same verdict on every
value, at every depth. -/
theorem compileValue_reordered (hl : ∀ loader ∈ c.resolver.loader?, loader.WellFormed)
    (hs : ∀ d, store.cache.Has d → d.root.graph.WellFormed) (hvw : v.Reordered w)
    (hd : Document.given v uri? = .ok document) (hc : c.resolver.Consistent (store.opened document))
    (hrun : c.compileValue v uri? store = (.ok s, after)) :
    (∀ e after', c.compileValue w uri? store = (.error e, after') →
      ∃ uri p, e = .tooDeep uri p c.limits.maxDepth) ∧
    ∀ t after', c.compileValue w uri? store = (.ok t, after') →
      ∀ maxDepth u, (s.validate maxDepth u).verdict = (t.validate maxDepth u).verdict := by
  obtain ⟨document', hd', hdocument⟩ := given_reordered hvw hd
  obtain ⟨rfl, heq⟩ := compileValue_eq c store hd
  obtain ⟨rfl, heq'⟩ := compileValue_eq c store hd'
  have hwf : ∀ document : Document, document.root.graph.WellFormed → store.WellFormed document := by
    rintro document hv d (rfl | hd)
    · exact hv
    · exact hs d hd
  have ho := hdocument.opened (hwf _ hvw.left)
  have hw := (hwf _ hvw.right).opened
  have he : c.resolver.Orderly (store.opened document) document :=
    ⟨hl, (hwf _ hvw.left).opened, hc, located_of_given c store hvw.left hd⟩
  obtain ⟨x, h, hg, hvalid⟩ := finished_of_compile he (heq ▸ hrun)
  refine ⟨fun e after' hrun' => ?_, fun t after' hrun' maxDepth u => ?_⟩
  · exact tooDeep_of_compile he ho hdocument hw h hvalid (heq' ▸ hrun')
  · obtain ⟨x', h', hg', -⟩ := finished_of_compile (he.reordered ho hdocument hw) (heq' ▸ hrun')
    have hroot' := h'.root
    rw [hdocument.location] at hroot'
    calc (s.validate maxDepth u).verdict
        _ = s.graph.verdict maxDepth 0 s.id u := verdict_check _ maxDepth _ 0 rfl _ u .root
        _ = t.graph.verdict maxDepth 0 t.id u := h.verdict he ho hdocument hw h' hg hg' h.root hroot' u
        _ = (t.validate maxDepth u).verdict := (verdict_check _ maxDepth _ 0 rfl _ u .root).symm

/-- A document is found under its URI if nothing else is at hand and nothing can be loaded. -/
theorem consistent_of_empty (hv : v.graph.WellFormed) (hd : Document.given v uri? = .ok document)
    (hl : c.resolver.loader? = none) (hs : store.cache.entries = []) :
    c.resolver.Consistent (store.opened document) := by
  intro key d hoffers
  cases hoffers with
  | loaded _ hloader => cases hl.symm.trans hloader
  | cached hcached =>
    have hopened := located_of_given c store hv hd
    unfold Store.opened at hcached hopened ⊢
    cases huri : document.uri? with
    | none => simp [huri, hs] at hcached
    | some uri =>
      simp only [huri, Cache.insertAs, hs, Members.insert, List.lookup_cons, List.lookup_nil] at hcached hopened ⊢
      split at hcached
      · cases hcached
        exact hopened.resolve_left (Option.some_ne_none _)
      · cases hcached

/-- A schema where a member leads to a schema that is three levels further down, and another one directly to it. -/
def sharedSchema : Value := ⟨⟨0, #[.object [("properties", 1), ("definitions", 7)], .object [("b", 5), ("a", 2)],
  .object [("not", 3)], .object [("not", 4)], .reference [("$ref", 6)], .reference [("$ref", 6)],
  .string "#/definitions/t", .object [("t", 8)], .object [("not", 9)], .object [("not", 10)], .object []]⟩, 0⟩

/-- Nothing can be loaded, and only a few levels are looked at. -/
def shallowCompiler : Compiler := ⟨⟨none, .standard⟩, ⟨5, 64, 1000⟩⟩

theorem wellFormed_sharedSchema : sharedSchema.graph.WellFormed := by decide

/-- The schema of rings says the same with its members in the opposite order. That of a shared schema comes to the depth
limit. -/
theorem compileValue_ringSchema_reversed :
    (∃ s t after after', lonelyCompiler.compileValue ringSchema (some "http://ring") (.start 2) = (.ok s, after) ∧
      lonelyCompiler.compileValue ringSchema.reversed (some "http://ring") (.start 2) = (.ok t, after') ∧
      ∀ maxDepth u, (s.validate maxDepth u).verdict = (t.validate maxDepth u).verdict) ∧
    ∃ s e uri p after after', shallowCompiler.compileValue sharedSchema none (.start 2) = (.ok s, after) ∧
      shallowCompiler.compileValue sharedSchema.reversed none (.start 2) = (.error e, after') ∧
      e = .tooDeep uri p 5 := by
  have hnothing : ∀ {tag : Nat} (d : Document), (Store.start tag).cache.Has d → d.root.graph.WellFormed :=
    fun d hd => (by obtain ⟨key, hk⟩ := hd; cases hk)
  refine ⟨?_, ?_⟩
  · obtain ⟨document, hd⟩ : ∃ document, Document.given ringSchema (some "http://ring") = .ok document :=
      exists_of_isOk (by decide +kernel)
    obtain ⟨s, after, hrun⟩ :
        ∃ s after, lonelyCompiler.compileValue ringSchema (some "http://ring") (.start 2) = (.ok s, after) :=
      run_of_isOk (by decide +kernel)
    obtain ⟨t, after', hrun'⟩ : ∃ t after',
        lonelyCompiler.compileValue ringSchema.reversed (some "http://ring") (.start 2) = (.ok t, after') :=
      run_of_isOk (by decide +kernel)
    have hverdict := (compileValue_reordered (fun loader hl => by cases hl) hnothing
      (Value.reordered_reversed wellFormed_ringSchema) hd (consistent_of_empty wellFormed_ringSchema hd rfl rfl)
      hrun).2 t after' hrun'
    exact ⟨s, t, after, after', hrun, hrun', hverdict⟩
  · obtain ⟨s, after, hrun⟩ : ∃ s after, shallowCompiler.compileValue sharedSchema none (.start 2) = (.ok s, after) :=
      run_of_isOk (by decide +kernel)
    obtain ⟨e, after', hrun'⟩ :
        ∃ e after', shallowCompiler.compileValue sharedSchema.reversed none (.start 2) = (.error e, after') :=
      run_of_not_isOk (by decide +kernel)
    have hd : Document.given sharedSchema none = .ok (.anonymous sharedSchema) := rfl
    obtain ⟨uri, p, he⟩ := (compileValue_reordered (fun loader hl => by cases hl) hnothing
      (Value.reordered_reversed wellFormed_sharedSchema) hd (consistent_of_empty wellFormed_sharedSchema hd rfl rfl)
      hrun).1 e after' hrun'
    exact ⟨s, e, uri, p, after, after', hrun, hrun', he⟩

/-- A schema whose members lead to the same document under the URI where it is asked for and under the one where it is
found. -/
def movedSchema : Value := ⟨⟨0, #[.object [("properties", 1)], .object [("b", 2), ("a", 4)], .reference [("$ref", 3)],
  .string "http://e/u", .reference [("$ref", 5)], .string "http://e/f"]⟩, 0⟩

/-- One document can be loaded, under a URI that leads to another one. -/
def redirectedCompiler : Compiler :=
  let (root, heap) := Heap.empty.addJson (.object [("type", .string "null")])
  ⟨⟨some (.ofSources [⟨"http://e/u", [], .ok ⟨heap, root, "http://e/f"⟩⟩]), .standard⟩, .standard⟩

theorem wellFormed_movedSchema : movedSchema.graph.WellFormed := by decide

/-- What is said if no schema is made. -/
def failure? (c : Compiler) (v : Value) : Option String :=
  match (c.compileValue v none (.start 2)).1 with
  | .ok _ => none
  | .error e => e.message?

/-- The order of members can decide whether the depth limit is come to, and whether a redirected document is found. -/
theorem compileValue_reversed_fails :
    (sharedSchema.Reordered sharedSchema.reversed ∧
      (shallowCompiler.compileValue sharedSchema none (.start 2)).1.isOk = true ∧
      shallowCompiler.failure? sharedSchema.reversed =
        some "Maximum schema depth (5) exceeded at '#/definitions/t/not/not'") ∧
    movedSchema.Reordered movedSchema.reversed ∧
      (redirectedCompiler.compileValue movedSchema none (.start 2)).1.isOk = true ∧
      redirectedCompiler.failure? movedSchema.reversed =
        some ("Unable to resolve reference 'http://e/f' in context '<anonymous>': " ++
          "Unable to resolve reference 'http://e/f' in context 'http://e/f': http://e/f not found") := by
  refine ⟨⟨Value.reordered_reversed wellFormed_sharedSchema, ?_, ?_⟩,
    Value.reordered_reversed wellFormed_movedSchema, ?_, ?_⟩ <;> decide +kernel

end Compiler

end JsonSchema
