import JsonSchema.Proofs.Dereference
import JsonSchema.Proofs.Isomorphism

/-!
References that are left over. Dereferencing replaces every reference that is met, but the tree it builds is read anew,
and an object is a reference whenever it holds a string under the reserved name. So references come out after all: where
an object that was none has, under that name, a reference that leads to a string (`Relic`). These are the only ones
(`Dereferenced.reference_iff`), and where there are none the new value stays as it is when it is dereferenced again.
-/

namespace JsonSchema

/-! ### What is left over -/

/-- An object that is met holds under the reserved name what is a string in the end. -/
structure Relic (leads : Leads) (document : Document) (v : Value) (d : Document) : Prop where
  met : Met leads document v d
  object : v.kind = .object
  string : ∃ child final s, v.get? referenceKey = some child ∧ Final leads child d final ∧ final.node = .string s

theorem Node.kind_ofMembers {g : Graph} {members : List (String × Nat)} :
    (Node.ofMembers g.nodes members).kind = .reference ↔
      ∃ id text, members.lookup referenceKey = some id ∧ g.node id = .string text := by
  by_cases h : ∃ id text, members.lookup referenceKey = some id ∧ g.node id = .string text
  · obtain ⟨id, text, hl, hn⟩ := h
    rw [Node.ofMembers_of_string hl (Graph.getElem?_nodes_eq_string.2 hn)]
    exact iff_of_true rfl ⟨id, text, hl, hn⟩
  · rw [Node.ofMembers_of_ne fun id text hl hn => h ⟨id, text, hl, Graph.getElem?_nodes_eq_string.1 hn⟩]
    exact iff_of_false (by simp [Node.kind]) h

theorem Value.lookup_members (v : Value) (key : String) : v.members.lookup key = v.get? key := by
  unfold Value.members Value.get?
  induction v.node.members with
  | nil => rfl
  | cons m members ih =>
    obtain ⟨k, id⟩ := m
    rw [List.map_cons, List.lookup_cons, List.lookup_cons, ih]
    cases key == k <;> rfl

namespace Resolver

variable {r : Resolver} {document d d' : Document} {s : Store} {v w final : Value} {f : Nat × Nat → Nat} {id : Nat}
  {text : String}

theorem final_unique {final' : Value} (h : Final (r.Leads s) v d final) (h' : Final (r.Leads s) v d final') :
    final = final' := by
  unfold Final at h h'
  split at h
  · next hr =>
    rw [if_pos hr] at h'
    obtain ⟨t, ht, rfl⟩ := h
    obtain ⟨t', ht', rfl⟩ := h'
    rw [Except.ok.inj (Eq.trans ht.symm ht')]
  · next hr =>
    rw [if_neg hr] at h'
    exact h.trans h'.symm

theorem met_of_final {leads : JsonSchema.Leads} (hm : Met leads document v d) (hf : Final leads v d final) :
    ∃ e, Met leads document final e := by
  unfold Final at hf
  split at hf
  · next hr =>
    obtain ⟨t, ht, rfl⟩ := hf
    exact ⟨t.document, .target hm hr ht⟩
  · exact ⟨d, hf ▸ hm⟩

/-- The image of a value is a string where the value finally is one. -/
theorem Dereferenced.string_iff (h : r.Dereferenced document s w f) (hm : Met (r.Leads s) document v d)
    (hi : r.Image s w.graph f v d id) :
    w.graph.node id = .string text ↔ ∃ final, Final (r.Leads s) v d final ∧ final.node = .string text := by
  obtain ⟨final, hf, hi⟩ := hi
  have hnode : w.graph.node id = .string text ↔ final.node = .string text := by
    split at hi
    · next hp =>
      obtain ⟨e, hmf⟩ := met_of_final hm hf
      have hcomp := (h.bijective.mapsTo ⟨final, e, hmf, hp, rfl⟩).2
      refine iff_of_false (fun hn => ?_) fun hn => ?_
      · rw [← hi, hn] at hcomp
        cases hcomp
      · simp [Value.isPlain, hn] at hp
    · rw [hi]
  rw [hnode]
  refine ⟨fun hn => ⟨final, hf, hn⟩, ?_⟩
  rintro ⟨final', hf', hn⟩
  rw [final_unique hf hf']
  exact hn

/-- The copy of an object is a reference where the object is a relic. -/
theorem Dereferenced.kind_eq_reference_iff (h : r.Dereferenced document s w f) (hm : Met (r.Leads s) document v d)
    (hk : v.kind = .object) :
    (w.graph.node (f v.identity)).kind = .reference ↔ Relic (r.Leads s) document v d := by
  obtain ⟨ms, hn⟩ : ∃ ms, v.node = .object ms := by
    unfold Value.kind Node.kind at hk
    cases hn : v.node <;> simp [hn] at hk
    exact ⟨_, rfl⟩
  obtain ⟨ms', hnode, hms⟩ := h.object hm hn
  have hmember : ∀ {child}, v.get? referenceKey = some child → Met (r.Leads s) document child d := fun hc =>
    hm.ofMember (by simp [hk]) (mem_of_lookup ((v.lookup_members _).trans hc))
  have hlookup : Option.Rel (fun child id => r.Image s w.graph f child d id) (v.members.lookup referenceKey)
      (ms'.lookup referenceKey) := lookup_rel hms referenceKey
  rw [v.lookup_members] at hlookup
  rw [hnode, Node.kind_ofMembers]
  constructor
  · rintro ⟨id, text, hl, hs⟩
    rw [hl] at hlookup
    cases hc : v.get? referenceKey with
    | none => rw [hc] at hlookup; cases hlookup
    | some child =>
      rw [hc] at hlookup
      cases hlookup with
      | some hi =>
        obtain ⟨final, hf, hs⟩ := (h.string_iff (hmember hc) hi).mp hs
        exact ⟨hm, hk, child, final, text, hc, hf, hs⟩
  · rintro ⟨-, -, child, final, text, hc, hf, hs⟩
    rw [hc] at hlookup
    cases hl : ms'.lookup referenceKey with
    | none => rw [hl] at hlookup; cases hlookup
    | some id =>
      rw [hl] at hlookup
      cases hlookup with
      | some hi => exact ⟨id, text, rfl, (h.string_iff (hmember hc) hi).mpr ⟨final, hf, hs⟩⟩

/-- The references of the new value are the copies of the relics. -/
theorem Dereferenced.reference_iff (h : r.Dereferenced document s w f) :
    (∃ id, w.graph.Reaches w.id id ∧ (w.graph.node id).kind = .reference) ↔
      ∃ v d, Relic (r.Leads s) document v d := by
  constructor
  · rintro ⟨id, hr, hk⟩
    have hcomp : (w.graph.node id).isComposite = true := by
      cases hn : w.graph.node id <;> simp [hn, Node.kind] at hk
      rfl
    obtain ⟨-, ⟨v, d, hm, hp, rfl⟩, rfl⟩ := h.bijective.surjOn ⟨hr, hcomp⟩
    refine ⟨v, d, (h.kind_eq_reference_iff hm ?_).mp hk⟩
    cases hn : v.node with
    | object members => simp [Value.kind, Node.kind, hn]
    | array ids =>
      obtain ⟨ids', hnode, -⟩ := h.array hm hn
      simp [hnode, Node.kind] at hk
    | _ => simp [Value.isPlain, hn] at hp
  · rintro ⟨v, d, hrelic⟩
    have hp : v.isPlain = true := by
      have hk := hrelic.object
      unfold Value.kind Node.kind at hk
      cases hn : v.node <;> simp [hn] at hk
      simp [Value.isPlain, hn]
    refine ⟨f v.identity, (h.bijective.mapsTo ⟨v, d, hrelic.met, hp, rfl⟩).1, ?_⟩
    exact (h.kind_eq_reference_iff hrelic.met hrelic.object).mpr hrelic

end Resolver

/-! ### The outcome -/

namespace Dereferencing

variable {r : Resolver} {document : Document} {n : Nat} {x : Dereferencing}

/-- The finished tree is well-formed: the keys of a cell are those of an object that is met. -/
theorem Inv.wellFormed_heap (h : Inv r document none x) (hnil : x.pending = []) : x.heap.WellFormed := by
  intro a members hc
  obtain ⟨v, d, hm, hp, hk⟩ := h.owner (Array.getElem?_eq_some_iff.mp hc).1
  obtain ⟨b, cell, heq, hc', hcopy⟩ := h.filled hnil hm hp hk
  cases heq
  cases hc.symm.trans hc'
  obtain ⟨hd, ho⟩ := Resolver.atHand_of_met hm
  have hkeys : members.map (·.1) = v.node.members.map (·.1) := by
    rw [map_fst_of_forall₂ (R := fun m i => Stands r x m d i) hcopy.2, Value.members, List.map_map]
    rfl
  have hw := h.coherent.wellFormed d hd
  rw [← ho.graph] at hw
  rw [hkeys]
  exact hw.nodup_keys v.id

end Dereferencing

namespace Resolver

open Dereferencing

variable {r : Resolver} {document : Document} {s after : Store} {w : Value}

/-- The value that dereferencing gives, whatever the loader does: a well-formed copy with a tag of its own. -/
theorem dereference_eq_ok (hwf : ∀ loader ∈ r.loader?, loader.WellFormed) (hs : s.Coherent document)
    (hrun : r.dereference document s = (.ok w, after)) :
    w.graph.WellFormed ∧ ∃ f, r.Dereferenced document after w f := by
  obtain ⟨x, root, place, h, hnil, hroot, hcache, hrep⟩ := finished hwf hs hrun
  exact ⟨hrep.wellFormed (h.wellFormed_heap hnil), _, h.dereferenced hnil hroot hcache hrep⟩

/-- Without a loader, a document in which no reference is met is dereferenced. -/
theorem dereference_of_no_reference (hloader : r.loader? = none) (hs : s.Coherent document)
    (hnone : ∀ leads v d, Met leads document v d → v.kind ≠ .reference) :
    ∃ w after, r.dereference document s = (.ok w, after) := by
  have hany : ∀ {P : Loader → Prop}, ∀ loader ∈ r.loader?, P loader := by simp [hloader]
  cases hbuild : build r document (r.reachSize document s) (start s) with
  | mk outcome x =>
    obtain ⟨-, hcases⟩ := build_cases hany hany hs (bounded_reachSize hany document s) hbuild
    rcases hcases with ⟨e, -, v, d, -, hm, hk, -⟩ | ⟨root, rfl, h, hnil, hroot⟩
    · exact absurd hk (hnone _ v d hm)
    · obtain ⟨w, place, hw, -⟩ := h.finish_eq_ok hnil hroot
      exact ⟨w, _, (dereference_run r document s hbuild).trans (by rw [hw])⟩

end Resolver

/-! ### Dereferencing again -/

/-- A value in which no reference can be reached, and no object that should be one. -/
structure Value.IsData (w : Value) : Prop where
  kind_ne : ∀ {id}, w.graph.Reaches w.id id → (w.graph.node id).kind ≠ .reference
  object : ∀ {id members}, w.graph.Reaches w.id id → w.graph.node id = .object members →
    Node.ofMembers w.graph.nodes members = .object members

section Again

variable {r : Resolver} {leads : Leads} {v w w' : Value} {d : Document} {s : Store} {f : Nat × Nat → Nat} {id id' : Nat}

theorem Node.mem_children {node : Node} {child : Nat} :
    child ∈ node.children ↔ child ∈ node.items ∨ ∃ key, (key, child) ∈ node.members := by
  cases node <;> simp [Node.children, Node.items, Node.members]

/-- What is met in data is what can be reached in it. -/
theorem Value.IsData.met_iff (hw : w.IsData) :
    Met leads (.anonymous w) v d ↔ d = .anonymous w ∧ ∃ id, w.graph.Reaches w.id id ∧ v = w.atNode id := by
  constructor
  · intro hm
    induction hm with
    | root => exact ⟨rfl, w.id, .root, rfl⟩
    | element _ hc ih =>
      obtain ⟨rfl, id, hr, rfl⟩ := ih
      obtain ⟨child, hchild, rfl⟩ := List.mem_map.mp hc
      exact ⟨rfl, child, .child hr (Node.mem_children.2 (.inl hchild)), rfl⟩
    | member _ _ hc ih =>
      obtain ⟨rfl, id, hr, rfl⟩ := ih
      obtain ⟨⟨key, child⟩, hchild, heq⟩ := List.mem_map.mp hc
      cases heq
      exact ⟨rfl, child, .child hr (Node.mem_children.2 (.inr ⟨_, hchild⟩)), rfl⟩
    | target _ hk _ ih =>
      obtain ⟨-, id, hr, rfl⟩ := ih
      exact absurd hk (hw.kind_ne hr)
  · rintro ⟨rfl, id, hr, rfl⟩
    induction hr with
    | root => exact .root
    | @child id child hr hc ih =>
      rcases Node.mem_children.1 hc with hitem | ⟨key, hmember⟩
      · exact .element ih (List.mem_map.mpr ⟨child, hitem, rfl⟩)
      · exact .member ih (hw.kind_ne hr) (List.mem_map.mpr ⟨(key, child), hmember, rfl⟩)

/-- In data an array or object is plain. -/
theorem Value.IsData.isPlain (hw : w.IsData) (hr : w.graph.Reaches w.id id) :
    (w.atNode id).isPlain = (w.graph.node id).isComposite := by
  have hk : (w.atNode id).node.kind ≠ .reference := hw.kind_ne hr
  change _ = (w.atNode id).node.isComposite
  unfold Value.isPlain
  revert hk
  cases (w.atNode id).node <;> simp [Node.kind, Node.isComposite]

/-- The image of data is its counterpart. -/
theorem Value.IsData.counterpart (hw : w.IsData) (hr : w.graph.Reaches w.id id)
    (hi : r.Image s w'.graph f (w.atNode id) d id') :
    Graph.Counterpart (fun i => f (w.graph.tag, i)) w.graph w'.graph id id' := by
  obtain ⟨final, hf, hi⟩ := hi
  have hk : (w.atNode id).kind ≠ .reference := hw.kind_ne hr
  rw [Final, if_neg hk] at hf
  subst hf
  rw [hw.isPlain hr] at hi
  exact hi

/-- Data has no relics. -/
theorem Value.IsData.not_relic (hw : w.IsData) : ¬Relic leads (.anonymous w) v d := by
  rintro ⟨hm, hk, child, final, text, hc, hf, htext⟩
  obtain ⟨-, id, hr, rfl⟩ := hw.met_iff.mp hm
  obtain ⟨c, hl, rfl⟩ := Option.map_eq_some_iff.mp hc
  have hchild : w.graph.Reaches w.id c := .child hr (Node.mem_children.2 (.inr ⟨_, mem_of_lookup hl⟩))
  have hkc : (w.atNode c).kind ≠ .reference := hw.kind_ne hchild
  rw [Final, if_neg (by exact hkc)] at hf
  subst hf
  obtain ⟨members, hn⟩ : ∃ members, w.graph.node id = .object members := by
    change (w.graph.node id).kind = _ at hk
    cases hn : w.graph.node id <;> simp [hn, Node.kind] at hk
    exact ⟨_, rfl⟩
  change (w.graph.node id).members.lookup referenceKey = some c at hl
  rw [hn] at hl
  have href : (Node.ofMembers w.graph.nodes members).kind = .reference := Node.kind_ofMembers.2 ⟨c, text, hl, htext⟩
  rw [hw.object hr hn] at href
  cases href

/-- The copy of data is isomorphic to it. -/
theorem Value.IsData.isomorphic (hw : w.IsData) (h : r.Dereferenced (.anonymous w) s w' f) : w.Isomorphic w' := by
  have hmet : ∀ {id}, w.graph.Reaches w.id id → Met (r.Leads s) (.anonymous w) (w.atNode id) (.anonymous w) :=
    fun hr => hw.met_iff.mpr ⟨rfl, _, hr, rfl⟩
  have hmem : ∀ {id child}, w.graph.Reaches w.id id → child ∈ (w.graph.node id).children →
      w.graph.Reaches w.id child := fun hr hc => .child hr hc
  refine ⟨fun i => f (w.graph.tag, i), hw.counterpart .root h.root, ?_, fun {id} hr hcomp => ?_⟩
  · have hidentity : Set.BijOn (fun i => (w.graph.tag, i))
        {id | w.graph.Reaches w.id id ∧ (w.graph.node id).isComposite = true}
        {i | ∃ v d, Met (r.Leads s) (.anonymous w) v d ∧ v.isPlain = true ∧ i = v.identity} := by
      refine ⟨fun id hid => ?_, fun _ _ _ _ heq => (Prod.mk.inj heq).2, ?_⟩
      · exact ⟨w.atNode id, _, hmet hid.1, (hw.isPlain hid.1).trans hid.2, rfl⟩
      · rintro i ⟨v, d, hm, hp, rfl⟩
        obtain ⟨-, id, hr, rfl⟩ := hw.met_iff.mp hm
        exact ⟨id, ⟨hr, (hw.isPlain hr).symm.trans hp⟩, rfl⟩
    exact h.bijective.comp hidentity
  · cases hn : w.graph.node id with
    | array ids =>
      obtain ⟨ids', hnode, hids⟩ := h.array (hmet hr) hn
      have helements : (w.atNode id).elements = ids.map w.atNode := by
        change (w.graph.node id).items.map w.atNode = _
        rw [hn, Node.items]
      rw [helements, List.forall₂_map_left_iff] at hids
      have hreach : ∀ child ∈ ids, w.graph.Reaches w.id child := fun child hc =>
        hmem hr (by rw [hn]; exact hc)
      change Node.Matches _ _ (w'.graph.node (f (w.atNode id).identity))
      rw [hnode]
      exact ((List.forall₂_and_left _ _).mpr ⟨hreach, hids⟩).imp fun _ _ hc => hw.counterpart hc.1 hc.2
    | object members =>
      obtain ⟨members', hnode, hmembers⟩ := h.object (hmet hr) hn
      have hlist : (w.atNode id).members = members.map fun m => (m.1, w.atNode m.2) := by
        change (w.graph.node id).members.map _ = _
        rw [hn]
        rfl
      rw [hlist, List.forall₂_map_left_iff] at hmembers
      have hreach : ∀ m ∈ members, w.graph.Reaches w.id m.2 := fun m hc =>
        hmem hr (by rw [hn]; exact List.mem_map_of_mem hc)
      have hobject : Node.ofMembers w'.graph.nodes members' = .object members' := by
        refine Node.ofMembers_of_ne fun c text hl hc => hw.not_relic ((h.kind_eq_reference_iff (hmet hr) ?_).mp ?_)
        · change (w.graph.node id).kind = _
          rw [hn, Node.kind]
        · rw [hnode]
          exact Node.kind_ofMembers.2 ⟨c, text, hl, Graph.getElem?_nodes_eq_string.1 hc⟩
      change Node.Matches _ _ (w'.graph.node (f (w.atNode id).identity))
      rw [hnode, hobject]
      exact ((List.forall₂_and_left _ _).mpr ⟨hreach, hmembers⟩).imp fun _ _ hc => ⟨hc.2.1, hw.counterpart hc.1 hc.2.2⟩
    | reference members => exact absurd (by rw [hn]; rfl) (hw.kind_ne hr)
    | _ => simp [hn, Node.isComposite] at hcomp

end Again

/-- The value that dereferencing gives is data when nothing is left over. -/
theorem Resolver.Dereferenced.isData {r : Resolver} {document : Document} {s : Store} {w : Value} {f : Nat × Nat → Nat}
    (h : r.Dereferenced document s w f) (hnone : ¬∃ v d, Relic (r.Leads s) document v d) : w.IsData := by
  have hkind : ∀ {id}, w.graph.Reaches w.id id → (w.graph.node id).kind ≠ .reference := fun hr hk =>
    hnone (h.reference_iff.mp ⟨_, hr, hk⟩)
  refine ⟨hkind, fun {id members} hr hn => ?_⟩
  obtain ⟨-, ⟨v, d, hm, hp, rfl⟩, rfl⟩ := h.bijective.surjOn ⟨hr, by rw [hn]; rfl⟩
  cases hv : v.node with
  | array ids =>
    obtain ⟨ids', hnode, -⟩ := h.array hm hv
    cases hnode.symm.trans hn
  | object ms =>
    obtain ⟨ms', hnode, -⟩ := h.object hm hv
    have heq : Node.ofMembers w.graph.nodes ms' = .object members := hnode.symm.trans hn
    have hms : ms' = members := by
      unfold Node.ofMembers at heq
      split at heq <;> cases heq
      rfl
    exact hms ▸ heq
  | _ => simp [Value.isPlain, hv] at hp

/-- **What dereferencing leaves over.** The references of the new value are the copies of those objects that hold,
under the reserved name, a reference to a string. If there are none, no reference can be reached, and dereferencing the
new value again, without document and loader, succeeds and gives an isomorphic value. -/
theorem dereference_residual {r : Resolver} {document : Document} {s after : Store} {w : Value}
    (hwf : ∀ loader ∈ r.loader?, loader.WellFormed) (hs : s.Coherent document)
    (hrun : r.dereference document s = (.ok w, after)) :
    ((∃ id, w.graph.Reaches w.id id ∧ (w.atNode id).kind = .reference) ↔
      ∃ v d, Relic (r.Leads after) document v d) ∧
    ((¬∃ v d, Relic (r.Leads after) document v d) → ∀ limits tag, w.graph.tag < tag →
      ∃ w' after', (Resolver.mk none limits).dereference (.anonymous w) (.start tag) = (.ok w', after') ∧
        w.Isomorphic w') := by
  obtain ⟨hgraph, f, hf⟩ := Resolver.dereference_eq_ok hwf hs hrun
  refine ⟨hf.reference_iff, fun hnone limits tag ht => ?_⟩
  have hdata : w.IsData := hf.isData hnone
  have hcoherent : (Store.start tag).Coherent (.anonymous w) := Store.coherent_start hgraph ht
  obtain ⟨w', after', hrun'⟩ := Resolver.dereference_of_no_reference (r := ⟨none, limits⟩) rfl hcoherent
    fun leads v d hm => by
      obtain ⟨-, id, hr, rfl⟩ := hdata.met_iff.mp hm
      exact hdata.kind_ne hr
  obtain ⟨-, f', hf'⟩ := Resolver.dereference_eq_ok (fun loader hl => by cases hl) hcoherent hrun'
  exact ⟨w', after', hrun', hdata.isomorphic hf'⟩

/-- The copy of a document that refers to itself and to a loaded array is data. -/
theorem dereference_ringDocument_again :
    (∀ loader ∈ ringResolver.loader?, loader.WellFormed) ∧ (Store.start 1).Coherent ringDocument ∧
    ∃ w after, ringResolver.dereference ringDocument (.start 1) = (.ok w, after) ∧
      (∀ id, w.graph.Reaches w.id id → (w.atNode id).kind ≠ .reference) ∧
      ∃ w' after', (Resolver.mk none .standard).dereference (.anonymous w) (.start after.nextTag) = (.ok w', after') ∧
        w.Isomorphic w' := by
  have hwf : ∀ loader ∈ ringResolver.loader?, loader.WellFormed := fun loader hl => by
    cases hl
    exact finite_ringLoader.wellFormed
  have hcheck : (match ringResolver.dereference ringDocument (.start 1) with
      | (.ok w, after) => w.graph.nodes.toList.all (fun node => decide (node.kind ≠ .reference)) &&
        decide (w.graph.tag < after.nextTag)
      | (.error _, _) => false) = true := by decide +kernel
  refine ⟨hwf, coherent_ringDocument, ?_⟩
  cases hrun : ringResolver.dereference ringDocument (.start 1) with
  | mk result after =>
    rw [hrun] at hcheck
    cases result with
    | error e => cases hcheck
    | ok w =>
      obtain ⟨hall, htag⟩ := Bool.and_eq_true_iff.mp hcheck
      obtain ⟨hiff, hagain⟩ := dereference_residual hwf coherent_ringDocument hrun
      have hnone : ∀ id, w.graph.Reaches w.id id → (w.atNode id).kind ≠ .reference := fun id _ => by
        change (w.graph.node id).kind ≠ .reference
        unfold Graph.node
        cases hn : w.graph.nodes[id]? with
        | none => decide
        | some node =>
          have hmem : node ∈ w.graph.nodes.toList := Array.mem_toList_iff.mpr (Array.mem_of_getElem? hn)
          exact of_decide_eq_true (List.all_eq_true.mp hall node hmem)
      exact ⟨w, after, rfl, hnone, hagain (fun h => by
        obtain ⟨id, hr, hk⟩ := hiff.mpr h
        exact hnone id hr hk) .standard after.nextTag (of_decide_eq_true htag)⟩

/-- A document with an object whose member `$ref` is a reference to a string. -/
def relicDocument : Document := .anonymous ⟨⟨0, #[.object [("a", 1), ("s", 4)], .object [("$ref", 2)],
  .reference [("$ref", 3)], .string "#/s", .string "x"]⟩, 0⟩

/-- Its copy holds a reference, and cannot be dereferenced again. -/
theorem dereference_relicDocument :
    ∃ w after, (Resolver.mk none .standard).dereference relicDocument (.start 1) = (.ok w, after) ∧
      (∃ id, w.graph.Reaches w.id id ∧ (w.atNode id).kind = .reference) ∧
      ∃ e, ((Resolver.mk none .standard).dereference (.anonymous w) (.start after.nextTag)).1 = .error e := by
  have hcheck : (match (Resolver.mk none .standard).dereference relicDocument (.start 1) with
      | (.ok w, after) => (w.graph.node w.id).children.any (fun id => decide ((w.atNode id).kind = .reference)) &&
        !((Resolver.mk none .standard).dereference (.anonymous w) (.start after.nextTag)).1.isOk
      | (.error _, _) => false) = true := by decide +kernel
  cases hrun : (Resolver.mk none .standard).dereference relicDocument (.start 1) with
  | mk result after =>
    rw [hrun] at hcheck
    cases result with
    | error e => cases hcheck
    | ok w =>
      obtain ⟨hany, hfails⟩ := Bool.and_eq_true_iff.mp hcheck
      obtain ⟨id, hid, hk⟩ := List.any_eq_true.mp hany
      refine ⟨w, after, rfl, ⟨id, .child .root hid, of_decide_eq_true hk⟩, ?_⟩
      cases hagain : ((Resolver.mk none .standard).dereference (.anonymous w) (.start after.nextTag)).1 with
      | error e => exact ⟨e, rfl⟩
      | ok w' =>
        rw [hagain] at hfails
        cases hfails

end JsonSchema
