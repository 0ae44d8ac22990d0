import JsonSchema.Proofs.Compile.Meaning
import JsonSchema.Proofs.Places

/-!
The construction of a schema graph, step by step. The places of a schema document that are visited (`Visited`) are
those that keywords compile and those that references lead to. A place determines its document, because no two
documents at hand have the same URI, and so its value; this is why nodes can be known by places.

The invariant (`Compilation.Inv`) says of each place that is known whether it is a reference and has the node of what
it leads to, is still open, or has its node filled with the meaning of its keywords. Open places are those around the
one that is being compiled; their nodes are referred to, but not looked at.
-/

namespace JsonSchema

/-! ### What is visited -/

/-- The places with schema documents that keywords and references lead to, with their values and documents. -/
inductive Visited (leads : Leads) (document : Document) : Value → Document → Pointer → Prop
  | root : Visited leads document document.root document .root
  | subschema {v w : Value} {d : Document} {p q : Pointer} : Visited leads document v d p → v.kind ≠ .reference →
      Subschema v p w q → Visited leads document w d q
  | target {v : Value} {d : Document} {p : Pointer} {t : Target} : Visited leads document v d p →
      v.kind = .reference → leads v d t → Visited leads document t.value t.document t.pointer

/-- No two documents at hand have the same URI. -/
def Cache.Distinct (c : Cache) (document : Document) : Prop :=
  ∀ d d', c.AtHand document d → c.AtHand document d' → d.uriText? = d'.uriText? → d = d'

theorem Cache.AtHand.mono {c c' : Cache} {document d : Document} (h : c.AtHand document d) (hg : c.Grows c') :
    c'.AtHand document d := h.imp_right hg.has

theorem Cache.Distinct.mono {c c' : Cache} {document : Document} (h : c'.Distinct document) (hg : c.Grows c') :
    c.Distinct document := fun d d' hd hd' => h d d' (hd.mono hg) (hd'.mono hg)

/-- A subschema is part of the document. -/
theorem Subschema.owns {v w : Value} {p q : Pointer} {d : Document} (h : Subschema v p w q) (ho : d.Owns v) :
    d.Owns w := by
  cases h with
  | not hw | items hw | additionalItems _ _ hw | additionalProperties hw => exact ho.get? hw
  | element _ hu hm => exact (ho.get? hu).at? (Value.at?_of_mem_zipIdx hm)
  | member _ hu hm => exact (ho.get? hu).member hm

/-- A subschema is part of the document, at its place. -/
theorem Subschema.owns_below? {v w : Value} {p q : Pointer} {d : Document} (h : Subschema v p w q)
    (hw : d.root.graph.WellFormed) (ho : d.Owns v) (hb : d.root.below? p.atoms = some v) :
    d.Owns w ∧ d.root.below? q.atoms = some w := by
  have hkeyword : ∀ {keyword u}, v.get? keyword = some u → d.root.below? (p.child keyword).atoms = some u := fun hu =>
    (Value.below?_append hb _).trans (Value.child?_of_get? hu)
  refine ⟨h.owns ho, ?_⟩
  cases h with
  | not hu | items hu | additionalItems _ _ hu | additionalProperties hu => exact hkeyword hu
  | element _ hu hm =>
    exact (Value.below?_append (hkeyword hu) _).trans (Value.child?_of_at? (Value.at?_of_mem_zipIdx hm))
  | member _ hu hm =>
    have hget := Value.get?_of_mem_members ((ho.get? hu).graph ▸ hw) hm
    exact (Value.below?_append (hkeyword hu) _).trans (Value.child?_of_get? hget)

namespace Visited

variable {r : Resolver} {leads leads' : Leads} {document d d' : Document} {s s' : Store} {v v' : Value} {p p' : Pointer}

theorem mono (h : ∀ v d t, leads v d t → leads' v d t) (hv : Visited leads document v d p) :
    Visited leads' document v d p := by
  induction hv with
  | root => exact .root
  | subschema _ hr hs ih => exact .subschema ih hr hs
  | target _ hr ht ih => exact .target ih hr (h _ _ _ ht)

theorem grow (h : Visited (r.Settled s) document v d p) (hg : s.cache.Grows s'.cache) :
    Visited (r.Settled s') document v d p := h.mono fun _ _ _ ht => ht.mono hg

/-- What is visited is part of a document at hand, at its place. -/
theorem atHand (hw : s.WellFormed document) (h : Visited (r.Settled s) document v d p) :
    s.cache.AtHand document d ∧ d.Owns v ∧ d.root.below? p.atoms = some v := by
  induction h with
  | root => exact ⟨.inl rfl, document.owns_root, rfl⟩
  | subschema _ _ hs ih =>
    obtain ⟨hat, ho, hb⟩ := ih
    exact ⟨hat, hs.owns_below? (hw _ hat) ho hb⟩
  | target _ _ ht ih =>
    obtain ⟨hfound, -⟩ := Resolver.resolve_found ht
    refine ⟨?_, Document.owns_of_resolve hfound.value, Value.below?_of_resolve hfound.value⟩
    rcases hfound.document with hd | hd
    · exact hd ▸ ih.1
    · exact .inr hd

/-- A place determines what is visited there. -/
theorem eq_of_location (hw : s.WellFormed document) (hd : s.cache.Distinct document)
    (h : Visited (r.Settled s) document v d p) (h' : Visited (r.Settled s) document v' d' p')
    (heq : d.location p = d'.location p') : v = v' ∧ d = d' ∧ p = p' := by
  obtain ⟨hat, -, hb⟩ := h.atHand hw
  obtain ⟨hat', -, hb'⟩ := h'.atHand hw
  obtain ⟨huri, rfl⟩ := Location.mk.inj heq
  obtain rfl := hd d d' hat hat' huri
  exact ⟨Option.some.inj (hb.symm.trans hb'), rfl, rfl⟩

end Visited

/-! ### The invariant -/

namespace Compilation

/-- The meaning of the keywords at a place, by the nodes that places have. -/
def reading (x : Compilation) (v : Value) (d : Document) (p : Pointer) : Reading :=
  ⟨v, p, fun q => x.known.lookup (d.location q), x.builder.never?⟩

/-- The place is visited and has the node. -/
structure Knows (r : Resolver) (document : Document) (x : Compilation) (v : Value) (d : Document) (p : Pointer)
    (id : SchemaId) : Prop where
  visited : Visited (r.Settled x.store) document v d p
  lookup : x.known.lookup (d.location p) = some id

/-- The places that are known have the nodes that they should have, except those that are open, and there are no
other nodes. -/
structure Inv (r : Resolver) (document : Document) (opens : List Location) (x : Compilation) : Prop where
  wellFormed : x.store.WellFormed document
  distinct : x.store.cache.Distinct document
  visited : ∀ {l id}, x.known.lookup l = some id → ∃ v d p, l = d.location p ∧ Knows r document x v d p id
  reference : ∀ {v d p id}, Knows r document x v d p id → v.kind = .reference →
    ∃ t, r.Settled x.store v d t ∧ x.known.lookup t.location = some id
  filled : ∀ {v d p id}, Knows r document x v d p id → v.kind ≠ .reference → d.location p ∉ opens →
    ∃ node, x.builder.nodes[id.index]? = some node ∧ (x.reading v d p).node = some node
  index : ∀ {v d p id}, Knows r document x v d p id → v.kind ≠ .reference →
    0 < id.index ∧ id.index < x.builder.nodes.size ∧ x.builder.never? ≠ some id
  injective : ∀ {v d p v' d' p' id}, Knows r document x v d p id → v.kind ≠ .reference →
    Knows r document x v' d' p' id → v'.kind ≠ .reference → d.location p = d'.location p'
  empty : x.builder.nodes[0]? = some ({} : SchemaNode)
  never : ∀ {id}, x.builder.never? = some id → 0 < id.index ∧
    x.builder.nodes[id.index]? = some { constraints := [.not .empty] } ∧
    ∃ v d p, Visited (r.Settled x.store) document v d p ∧ v.kind ≠ .reference ∧ v.Forbids
  only : ∀ {i}, i < x.builder.nodes.size → i = 0 ∨ x.builder.never? = some ⟨i⟩ ∨
    ∃ v d p, Knows r document x v d p ⟨i⟩ ∧ v.kind ≠ .reference

/-- A reading stays what it is while the construction goes on. -/
theorem reading_node_of_grows {x x' : Compilation} {v : Value} {d : Document} {p : Pointer} {node : SchemaNode}
    (hg : x.Grows x') (h : (x.reading v d p).node = some node) : (x'.reading v d p).node = some node := by
  let source : SchemaSource := ⟨v, d, p, fun _ _ => pure .empty, 0⟩
  have hreads : Reads (fun _ => False) d .empty source.node fun x => (source.reading x).node :=
    SchemaSource.reads_node
      (fun w q _ => ⟨.of_store fun _ => by rfl, fun hg => hg.known, fun h => h.elim⟩)
      (fun _ => ⟨.of_store fun _ => by rfl, fun hg => hg.never, fun h => h.elim⟩)
  exact hreads.stable hg h

variable {r : Resolver} {document d d' : Document} {opens : List Location} {x x' : Compilation} {v v' : Value}
  {p p' : Pointer} {id id' : SchemaId}

theorem Knows.grow (h : Knows r document x v d p id) (hg : x.Grows x') : Knows r document x' v d p id :=
  ⟨h.visited.grow hg.store, hg.known h.lookup⟩

/-- Two pieces of knowledge about one place are the same. -/
theorem Inv.knows_unique (h : Inv r document opens x) (hk : Knows r document x v d p id)
    (hk' : Knows r document x v' d' p' id') (heq : d.location p = d'.location p') :
    v = v' ∧ d = d' ∧ p = p' ∧ id = id' := by
  obtain ⟨rfl, rfl, rfl⟩ := hk.visited.eq_of_location h.wellFormed h.distinct hk'.visited heq
  exact ⟨rfl, rfl, rfl, Option.some.inj (hk.lookup.symm.trans hk'.lookup)⟩

/-! ### What keeps the invariant -/

section

variable (h : Inv r document opens x) (hg : x.Grows x')

include h hg

theorem Inv.visited_of_grows {l : Location} (hl : x.known.lookup l = some id) :
    ∃ v d p, l = d.location p ∧ Knows r document x' v d p id := by
  obtain ⟨v, d, p, heq, hk⟩ := h.visited hl
  exact ⟨v, d, p, heq, hk.grow hg⟩

theorem Inv.reference_of_grows (hk : Knows r document x v d p id) (hr : v.kind = .reference) :
    ∃ t, r.Settled x'.store v d t ∧ x'.known.lookup t.location = some id := by
  obtain ⟨t, ht, hid⟩ := h.reference hk hr
  exact ⟨t, ht.mono hg.store, hg.known hid⟩

theorem Inv.filled_of_grows (hk : Knows r document x v d p id) (hr : v.kind ≠ .reference) (ho : d.location p ∉ opens) :
    ∃ node, x'.builder.nodes[id.index]? = some node ∧ (x'.reading v d p).node = some node := by
  obtain ⟨node, hn, hread⟩ := h.filled hk hr ho
  exact ⟨node, hg.nodes hn, reading_node_of_grows hg hread⟩

theorem Inv.never_of_grows (hn : x.builder.never? = some id) : 0 < id.index ∧
    x'.builder.nodes[id.index]? = some { constraints := [.not .empty] } ∧
    ∃ v d p, Visited (r.Settled x'.store) document v d p ∧ v.kind ≠ .reference ∧ v.Forbids := by
  obtain ⟨hpos, hnode, v, d, p, hv, hr, hf⟩ := h.never hn
  exact ⟨hpos, hg.nodes hnode, v, d, p, hv.grow hg.store, hr, hf⟩

theorem Inv.only_of_grows {i : Nat} (hi : i < x.builder.nodes.size) : i = 0 ∨ x'.builder.never? = some ⟨i⟩ ∨
    ∃ v d p, Knows r document x' v d p ⟨i⟩ ∧ v.kind ≠ .reference := by
  rcases h.only hi with hzero | hnever | ⟨v, d, p, hk, hr⟩
  · exact .inl hzero
  · exact .inr (.inl (hg.never hnever))
  · exact .inr (.inr ⟨v, d, p, hk.grow hg, hr⟩)

end

/-- Documents may come to hand. -/
theorem Inv.extend (h : Inv r document opens x) (hs : x.store.Extends document x'.store)
    (hd : x'.store.cache.Distinct document) (hb : x'.builder = x.builder) (hk : x'.known = x.known) :
    Inv r document opens x' ∧ x.Grows x' := by
  have hg : x.Grows x' := ⟨hs.grows, fun h => (by rwa [hk]), fun h => (by rwa [hb]), fun h => (by rwa [hb])⟩
  have hw := hs.wellFormed h.wellFormed
  -- what is known was visited before
  have hback : ∀ {v d p id}, Knows r document x' v d p id → Knows r document x v d p id := by
    intro v d p id hv
    have hlookup := hk ▸ hv.lookup
    obtain ⟨v', d', p', heq, hv'⟩ := h.visited hlookup
    obtain ⟨rfl, rfl, rfl⟩ := hv.visited.eq_of_location hw hd (hv'.grow hg).visited heq
    exact hv'
  refine ⟨⟨hw, hd, fun hl => h.visited_of_grows hg (hk ▸ hl), fun hv => h.reference_of_grows hg (hback hv),
    fun hv => h.filled_of_grows hg (hback hv), fun hv hr => ?_,
    fun hv hr hv' => h.injective (hback hv) hr (hback hv'), hb ▸ h.empty, fun hn => h.never_of_grows hg (hb ▸ hn),
    fun hi => h.only_of_grows hg (hb ▸ hi)⟩, hg⟩
  rw [hb]
  exact h.index (hback hv) hr

theorem lookup_enter {place l : Location} (hk : x'.known = (place, id) :: x.known)
    (hl : x'.known.lookup l = some id') : (l = place ∧ id' = id) ∨ x.known.lookup l = some id' := by
  rw [hk, lookup_cons_eq] at hl
  split at hl
  · next heq => exact .inl ⟨heq, (Option.some.inj hl).symm⟩
  · exact .inr hl

/-- What is known after a place was entered is that place, or was known before. -/
theorem knows_enter (h : Knows r document x' v' d' p' id') (hs : x'.store = x.store)
    (hk : x'.known = (d.location p, id) :: x.known) :
    (d'.location p' = d.location p ∧ id' = id) ∨ Knows r document x v' d' p' id' := by
  exact (lookup_enter hk h.lookup).imp_right fun hlookup => ⟨hs ▸ h.visited, hlookup⟩

/-- A reference gets the node of what it leads to. -/
theorem Inv.enter (h : Inv r document opens x) (hv : Visited (r.Settled x.store) document v d p)
    (hr : v.kind = .reference) {t : Target} (ht : r.Settled x.store v d t)
    (hid : x.known.lookup t.location = some id) :
    Inv r document opens { x with known := (d.location p, id) :: x.known } ∧
      x.Grows { x with known := (d.location p, id) :: x.known } := by
  have hg : x.Grows { x with known := (d.location p, id) :: x.known } := by
    refine ⟨.refl _, fun {l id'} hl => ?_, fun hn => hn, fun hn => hn⟩
    rw [lookup_cons_eq]
    split
    · next heq =>
      -- the reference was known already
      have hknown : Knows r document x v d p id' := ⟨hv, heq ▸ hl⟩
      obtain ⟨t', ht', hid'⟩ := h.reference hknown hr
      obtain rfl : t = t' := ht.unique ht'
      exact hid.symm.trans hid'
    · exact hl
  have hself : Knows r document { x with known := (d.location p, id) :: x.known } v d p id :=
    ⟨hv, by rw [lookup_cons_eq, if_pos rfl]⟩
  have hback : ∀ {v' d' p' id'}, v'.kind ≠ .reference →
      Knows r document { x with known := (d.location p, id) :: x.known } v' d' p' id' →
      Knows r document x v' d' p' id' := by
    intro v' d' p' id' hr' hk
    rcases knows_enter (x := x) hk rfl rfl with ⟨heq, -⟩ | hk
    · obtain ⟨rfl, -⟩ := hk.visited.eq_of_location h.wellFormed h.distinct hv heq
      exact absurd hr hr'
    · exact hk
  refine ⟨⟨h.wellFormed, h.distinct, fun {l id'} hl => ?_, fun {v' d' p' id'} hk hr' => ?_,
    fun hk hr' => h.filled_of_grows hg (hback hr' hk) hr', fun hk hr' => h.index (hback hr' hk) hr',
    fun hk hr' hk' hr'' => h.injective (hback hr' hk) hr' (hback hr'' hk') hr'',
    h.empty, h.never, fun hi => h.only_of_grows hg hi⟩, hg⟩
  · rcases lookup_enter (x := x) rfl hl with ⟨heq, rfl⟩ | hl
    · exact ⟨v, d, p, heq, hself⟩
    · exact h.visited_of_grows hg hl
  · rcases knows_enter (x := x) hk rfl rfl with ⟨heq, rfl⟩ | hk
    · obtain ⟨rfl, rfl, rfl⟩ := hk.visited.eq_of_location h.wellFormed h.distinct hv heq
      exact ⟨t, ht, hg.known hid⟩
    · exact h.reference_of_grows hg hk hr'

/-- A new place, whose node is a new one. -/
def opened (x : Compilation) (place : Location) : Compilation :=
  { x with builder := x.builder.allocate.2, known := (place, x.builder.allocate.1) :: x.known }

theorem nodes_opened (x : Compilation) (place : Location) (i : Nat) :
    (x.opened place).builder.nodes[i]? = if i = x.builder.nodes.size then some {} else x.builder.nodes[i]? :=
  Array.getElem?_push

theorem size_opened (x : Compilation) (place : Location) :
    (x.opened place).builder.nodes.size = x.builder.nodes.size + 1 := Array.size_push _

theorem grows_opened {place : Location} (hk : x.known.lookup place = none) : x.Grows (x.opened place) := by
  refine ⟨.refl _, fun {l id} hl => ?_, fun {i node} hn => ?_, fun hn => hn⟩
  · rw [opened, lookup_cons_eq, if_neg]
    · exact hl
    · rintro rfl
      cases hk.symm.trans hl
  · rw [nodes_opened, if_neg]
    · exact hn
    · rintro rfl
      cases (Array.getElem?_size).symm.trans hn

/-- A place that is met for the first time is open. -/
theorem inv_opened (h : Inv r document opens x) (hv : Visited (r.Settled x.store) document v d p)
    (hr : v.kind ≠ .reference) (hnone : x.known.lookup (d.location p) = none) :
    Inv r document (d.location p :: opens) (x.opened (d.location p)) := by
  have hg := grows_opened hnone
  have hsize := size_opened x (d.location p)
  have hpos : 0 < x.builder.nodes.size := (Array.getElem?_eq_some_iff.mp h.empty).1
  have hself : Knows r document (x.opened (d.location p)) v d p ⟨x.builder.nodes.size⟩ :=
    ⟨hv, by rw [opened, lookup_cons_eq, if_pos rfl]; rfl⟩
  -- a place that is known is the new one, which has the last node, or one that has an earlier node
  have hcases : ∀ {v' d' p' id'}, v'.kind ≠ .reference → Knows r document (x.opened (d.location p)) v' d' p' id' →
      (d'.location p' = d.location p ∧ id'.index = x.builder.nodes.size) ∨
        (Knows r document x v' d' p' id' ∧ id'.index < x.builder.nodes.size) := by
    intro v' d' p' id' hr' hk
    rcases knows_enter (x := x) hk rfl rfl with ⟨heq, rfl⟩ | hk
    · exact .inl ⟨heq, rfl⟩
    · exact .inr ⟨hk, (h.index hk hr').2.1⟩
  have hnever_lt : ∀ {id'}, x.builder.never? = some id' → id'.index < x.builder.nodes.size := fun hn =>
    (Array.getElem?_eq_some_iff.mp (h.never hn).2.1).1
  refine ⟨h.wellFormed, h.distinct, fun {l id'} hl => ?_, fun hk hr' => ?_, fun hk hr' ho => ?_, fun hk hr' => ?_,
    fun hk hr' hk' hr'' => ?_, hg.nodes h.empty, fun hn => h.never_of_grows hg hn, fun {i} hi => ?_⟩
  · rcases lookup_enter (x := x) rfl hl with ⟨heq, rfl⟩ | hl
    · exact ⟨v, d, p, heq, hself⟩
    · exact h.visited_of_grows hg hl
  · rcases knows_enter (x := x) hk rfl rfl with ⟨heq, -⟩ | hk
    · obtain ⟨rfl, -⟩ := hk.visited.eq_of_location h.wellFormed h.distinct hv heq
      exact absurd hr' hr
    · exact h.reference_of_grows hg hk hr'
  · rcases hcases hr' hk with ⟨heq, -⟩ | ⟨hk, -⟩
    · exact absurd (heq ▸ List.mem_cons_self) ho
    · exact h.filled_of_grows hg hk hr' fun hmem => ho (List.mem_cons_of_mem _ hmem)
  · rcases hcases hr' hk with ⟨-, hid⟩ | ⟨hk, -⟩
    · refine ⟨by omega, by omega, fun hn => ?_⟩
      have := hnever_lt hn
      omega
    · obtain ⟨hpos, hlt, hnever⟩ := h.index hk hr'
      exact ⟨hpos, by omega, hnever⟩
  · rcases hcases hr' hk with ⟨heq, hid⟩ | ⟨hk, hid⟩ <;> rcases hcases hr'' hk' with ⟨heq', hid'⟩ | ⟨hk', hid'⟩
    · exact heq.trans heq'.symm
    · omega
    · omega
    · exact h.injective hk hr' hk' hr''
  · rcases Nat.lt_succ_iff_lt_or_eq.mp (hsize ▸ hi) with hlt | rfl
    · exact h.only_of_grows hg hlt
    · exact .inr (.inr ⟨v, d, p, hself, hr⟩)

/-- A node is filled. -/
def closed (x : Compilation) (id : SchemaId) (node : SchemaNode) : Compilation :=
  { x with builder := x.builder.update id fun _ => node }

theorem nodes_closed (x : Compilation) (id : SchemaId) (node : SchemaNode) (i : Nat) :
    (x.closed id node).builder.nodes[i]? = if id.index = i then x.builder.nodes[i]?.map fun _ => node
      else x.builder.nodes[i]? := Array.getElem?_modify

theorem size_closed (x : Compilation) (id : SchemaId) (node : SchemaNode) :
    (x.closed id node).builder.nodes.size = x.builder.nodes.size := Array.size_modify

/-- What there was before a place was opened is not lost when it is closed. -/
theorem grows_closed {node : SchemaNode} (hg : x.Grows x') (hid : x.builder.nodes.size ≤ id.index) :
    x.Grows (x'.closed id node) := by
  refine ⟨hg.store, hg.known, fun {i node'} hn => ?_, hg.never⟩
  have hlt := (Array.getElem?_eq_some_iff.mp hn).1
  rw [nodes_closed, if_neg (by omega)]
  exact hg.nodes hn

/-- A place is closed when the schemas in it have nodes. -/
theorem inv_closed (h : Inv r document (d.location p :: opens) x) (hk : Knows r document x v d p id)
    (hr : v.kind ≠ .reference) {node : SchemaNode} (hread : (x.reading v d p).node = some node) :
    Inv r document opens (x.closed id node) := by
  obtain ⟨hpos, hlt, hnever⟩ := h.index hk hr
  have hother : ∀ {i : Nat}, id.index ≠ i → (x.closed id node).builder.nodes[i]? = x.builder.nodes[i]? := fun hne => by
    rw [nodes_closed, if_neg hne]
  have hback : ∀ {v' d' p' id'}, Knows r document (x.closed id node) v' d' p' id' → Knows r document x v' d' p' id' :=
    fun hk => ⟨hk.visited, hk.lookup⟩
  have hforth : ∀ {v' d' p' id'}, Knows r document x v' d' p' id' → Knows r document (x.closed id node) v' d' p' id' :=
    fun hk => ⟨hk.visited, hk.lookup⟩
  refine ⟨h.wellFormed, h.distinct, fun hl => ?_, fun hk' hr' => h.reference (hback hk') hr',
    fun {v' d' p' id'} hk' hr' ho => ?_, fun hk' hr' => ?_,
    fun hk' hr' hk'' hr'' => h.injective (hback hk') hr' (hback hk'') hr'',
    ?_, fun {id'} hn => ?_, fun {i} hi => ?_⟩
  · obtain ⟨v', d', p', heq, hk'⟩ := h.visited hl
    exact ⟨v', d', p', heq, hforth hk'⟩
  · by_cases heq : d'.location p' = d.location p
    · obtain ⟨rfl, rfl, rfl, rfl⟩ := h.knows_unique (hback hk') hk heq
      refine ⟨node, ?_, hread⟩
      rw [nodes_closed, if_pos rfl, Array.getElem?_eq_getElem hlt]
      rfl
    · have hne : id.index ≠ id'.index := fun hindex => by
        obtain rfl : id = id' := congrArg SchemaId.mk hindex
        exact heq (h.injective (hback hk') hr' hk hr)
      obtain ⟨node', hn, hread'⟩ := h.filled (hback hk') hr' fun hmem =>
        (List.mem_cons.mp hmem).elim heq ho
      exact ⟨node', (hother hne).trans hn, hread'⟩
  · rw [size_closed]
    exact h.index (hback hk') hr'
  · exact (hother (Nat.ne_of_gt hpos)).trans h.empty
  · obtain ⟨hpos', hnode, hforbids⟩ := h.never hn
    have hne : id.index ≠ id'.index := fun hindex => hnever (hn.trans (congrArg (some ∘ SchemaId.mk) hindex.symm))
    exact ⟨hpos', (hother hne).trans hnode, hforbids⟩
  · rcases h.only (size_closed x id node ▸ hi) with hzero | hn | ⟨v', d', p', hk', hr'⟩
    · exact .inl hzero
    · exact .inr (.inl hn)
    · exact .inr (.inr ⟨v', d', p', hforth hk', hr'⟩)

/-- The node that accepts nothing is added. -/
def forbidding (x : Compilation) : Compilation :=
  { x with builder := ⟨x.builder.nodes.push { constraints := [.not .empty] }, some ⟨x.builder.nodes.size⟩⟩ }

theorem nodes_forbidding (x : Compilation) (i : Nat) :
    x.forbidding.builder.nodes[i]? = if i = x.builder.nodes.size then some { constraints := [.not .empty] }
      else x.builder.nodes[i]? := Array.getElem?_push

theorem grows_forbidding (hn : x.builder.never? = none) : x.Grows x.forbidding := by
  refine ⟨.refl _, fun hl => hl, fun {i node} hi => ?_, fun {id} hid => ?_⟩
  · have hlt := (Array.getElem?_eq_some_iff.mp hi).1
    rw [nodes_forbidding, if_neg (by omega)]
    exact hi
  · cases hn.symm.trans hid

theorem inv_forbidding (h : Inv r document opens x) (hv : Visited (r.Settled x.store) document v d p)
    (hr : v.kind ≠ .reference) (hf : v.Forbids) (hn : x.builder.never? = none) : Inv r document opens x.forbidding := by
  have hg := grows_forbidding hn
  have hpos : 0 < x.builder.nodes.size := (Array.getElem?_eq_some_iff.mp h.empty).1
  have hsize : x.forbidding.builder.nodes.size = x.builder.nodes.size + 1 := Array.size_push _
  have hback : ∀ {v' d' p' id'}, Knows r document x.forbidding v' d' p' id' → Knows r document x v' d' p' id' :=
    fun hk => ⟨hk.visited, hk.lookup⟩
  refine ⟨h.wellFormed, h.distinct, fun hl => h.visited_of_grows hg hl, fun hk => h.reference (hback hk),
    fun hk => h.filled_of_grows hg (hback hk), fun {v' d' p' id'} hk hr' => ?_,
    fun hk hr' hk' => h.injective (hback hk) hr' (hback hk'), hg.nodes h.empty, fun {id'} hid => ?_, fun {i} hi => ?_⟩
  · obtain ⟨hpos', hlt, -⟩ := h.index (hback hk) hr'
    refine ⟨hpos', by omega, fun hid => ?_⟩
    cases hid
    exact Nat.lt_irrefl _ hlt
  · cases hid
    exact ⟨hpos, by rw [nodes_forbidding, if_pos rfl], v, d, p, hv, hr, hf⟩
  · rcases Nat.lt_succ_iff_lt_or_eq.mp (hsize ▸ hi) with hlt | rfl
    · exact h.only_of_grows hg hlt
    · exact .inr (.inl rfl)

/-- The node that accepts nothing is there already, or it is added when it is asked for. -/
theorem never_cases (hrun : building SchemaBuilder.never x = (.ok id, x')) : x.builder.never? = some id ∧ x' = x ∨
    x.builder.never? = none ∧ id = ⟨x.builder.nodes.size⟩ ∧ x' = x.forbidding := by
  have hbuild : building SchemaBuilder.never x =
      (.ok x.builder.never.1, { x with builder := x.builder.never.2 }) := rfl
  cases hn : x.builder.never? with
  | some id' =>
    have hsame : x.builder.never = (id', x.builder) := by rw [SchemaBuilder.never, hn]
    rw [hbuild, hsame] at hrun
    cases hrun
    exact .inl ⟨rfl, rfl⟩
  | none =>
    have hnew : x.builder.never = (⟨x.builder.nodes.size⟩, x.forbidding.builder) := by
      rw [SchemaBuilder.never, hn]
      rfl
    rw [hbuild, hnew] at hrun
    cases hrun
    exact .inr ⟨rfl, rfl, rfl⟩

/-- The node that accepts nothing is there when it was asked for. -/
theorem never_spec (h : Inv r document opens x) (hv : Visited (r.Settled x.store) document v d p)
    (hr : v.kind ≠ .reference) (hf : v.Forbids) (hrun : building SchemaBuilder.never x = (.ok id, x')) :
    Inv r document opens x' ∧ x.Grows x' ∧ x'.builder.never? = some id := by
  rcases never_cases hrun with ⟨hn, rfl⟩ | ⟨hn, rfl, rfl⟩
  · exact ⟨h, .refl x', hn⟩
  · exact ⟨inv_forbidding h hv hr hf hn, grows_forbidding hn, rfl⟩

end Compilation

end JsonSchema
