import JsonSchema.Proofs.Loading
import JsonSchema.Proofs.WellFormed
import Mathlib.Data.Finset.Card
import Mathlib.Order.Interval.Finset.Nat

/-!
What holds of documents at hand. They are well-formed, and a graph that is made later gets a tag that no other one
has. So two documents that do not share nodes never come to share any, whatever is loaded (`Store.Coherent`), and an
array or object met in a document tells which document that is.

From a loader with finitely many documents (`Loader.Finite`) loading is bounded: a document that is in the cache is not
asked for again, so what is at hand and what the loader still holds back are together no more than what there was in the
beginning (`Store.Bounded`).
-/

namespace JsonSchema

/-! ### Values of a document -/

/-- The value is part of the document. -/
structure Document.Owns (d : Document) (v : Value) : Prop where
  graph : v.graph = d.root.graph
  reaches : d.root.graph.Reaches d.root.id v.id

namespace Document

variable {d : Document} {v child : Value}

theorem owns_root (d : Document) : d.Owns d.root := ⟨rfl, .root⟩

theorem Owns.atNode (h : d.Owns v) {id : Nat} (hid : id ∈ v.node.children) : d.Owns (v.atNode id) := by
  refine ⟨h.graph, .child h.reaches ?_⟩
  rw [← h.graph]
  exact hid

theorem Owns.element (h : d.Owns v) (hc : child ∈ v.elements) : d.Owns child := by
  obtain ⟨id, hid, rfl⟩ := List.mem_map.mp hc
  refine h.atNode ?_
  cases hn : v.node <;> simp_all [Node.items, Node.children]

theorem Owns.member (h : d.Owns v) {key : String} (hc : (key, child) ∈ v.members) : d.Owns child := by
  obtain ⟨⟨k, id⟩, hid, heq⟩ := List.mem_map.mp hc
  cases heq
  refine h.atNode ?_
  cases hn : v.node with
  | object members =>
    rw [hn] at hid
    exact List.mem_map_of_mem (f := (·.2)) hid
  | reference members =>
    rw [hn] at hid
    exact List.mem_map_of_mem (f := (·.2)) hid
  | _ => simp [hn, Node.members] at hid

theorem Owns.get? (h : d.Owns v) {key : String} (hc : v.get? key = some child) : d.Owns child := by
  obtain ⟨id, hid, rfl⟩ := Option.map_eq_some_iff.mp hc
  exact h.member (List.mem_map.mpr ⟨_, mem_of_lookup hid, rfl⟩)

theorem Owns.at? (h : d.Owns v) {index : Nat} (hc : v.at? index = some child) : d.Owns child := by
  obtain ⟨id, hid, rfl⟩ := Option.map_eq_some_iff.mp hc
  exact h.element (List.mem_map_of_mem (List.mem_of_getElem? hid))

theorem Owns.step (h : d.Owns v) {atom : String} (hs : v.step atom = .ok child) : d.Owns child := by
  unfold Value.step at hs
  split at hs
  · split at hs
    · cases hs
    · split at hs
      · next hc =>
        cases hs
        exact h.at? hc
      · cases hs
  · split at hs
    · next hc =>
      cases hs
      exact h.get? hc
    · cases hs
  · split at hs
    · next hc =>
      cases hs
      exact h.get? hc
    · cases hs
  · cases hs

theorem Owns.follow (h : d.Owns v) {position : Nat} {atoms : List String}
    (hf : v.follow position atoms = .ok child) : d.Owns child := by
  induction atoms generalizing v position with
  | nil =>
    cases hf
    exact h
  | cons atom atoms ih =>
    rw [Value.follow] at hf
    split at hf
    · next v' hs => exact ih (h.step hs) hf
    · cases hf

/-- What a pointer designates in a document is part of it. -/
theorem owns_of_resolve {p : Pointer} (h : p.resolve d.root = .ok v) : d.Owns v := by
  unfold Pointer.resolve at h
  split at h
  · next hf =>
    cases h
    exact d.owns_root.follow hf
  · cases h

end Document

/-! ### The documents at hand -/

/-- A document, or one in the cache. -/
def Cache.AtHand (c : Cache) (document d : Document) : Prop := d = document ∨ c.Has d

theorem Store.has_settle {uri : Uri} {d d' : Document} {s : Store} (h : (s.settle uri d).cache.Has d') :
    d' = d ∨ s.cache.Has d' := by
  unfold Store.settle at h
  split at h
  · exact .inr h
  · split at h
    · exact Cache.has_of_insertAs h
    · exact .inr h

theorem Store.nextTag_settle (uri : Uri) (d : Document) (s : Store) : (s.settle uri d).nextTag = s.nextTag := by
  unfold Store.settle
  split
  · rfl
  · split <;> rfl

/-- Loading adds no document to those at hand, or the one that the loader gave for a URI without document. -/
theorem Resolver.load_cases (r : Resolver) (uri : Uri) (s : Store) :
    ((∀ d, (r.load uri s).2.cache.Has d → s.cache.Has d) ∧ s.nextTag ≤ (r.load uri s).2.nextTag) ∨
      ∃ loader earlier remote root finalUri, r.loader? = some loader ∧ s.cache.get? uri = none ∧
        loader.answer (Cache.key uri) earlier = .ok remote ∧
        Value.transform s.nextTag remote.heap remote.root = .ok root ∧
        (∀ d, (r.load uri s).2.cache.Has d → d = .retrieved finalUri root ∨ s.cache.Has d) ∧
        (r.load uri s).2.cache.get? uri = some (.retrieved finalUri root) ∧
        (r.load uri s).2.nextTag = s.nextTag + 1 := by
  have hget : ∀ d s', r.load uri s = (.ok d, s') → s'.cache.get? uri = some d := fun d s' => load_get?
  rw [load_run] at hget ⊢
  cases hc : s.cache.get? uri with
  | some d =>
    refine .inl ⟨fun d' hd' => ?_, Nat.le_of_eq (Store.nextTag_settle _ _ _).symm⟩
    rcases Store.has_settle hd' with rfl | hd'
    · exact ⟨_, hc⟩
    · exact hd'
  | none =>
    simp only [hc] at hget
    cases hf : Loader.fetch r.loader? uri.withoutFragment s with
    | mk result s₁ =>
      have hcache := fetch_cache hf
      cases result with
      | error e =>
        refine .inl ⟨fun d hd => ?_, fetch_nextTag hf⟩
        rw [← hcache]
        exact hd
      | ok d =>
        obtain ⟨loader, remote, root, finalUri, hl, ha, ht, -, rfl, hs₁⟩ := fetch_eq_ok hf
        refine .inr ⟨loader, _, remote, root, finalUri, hl, rfl, ha, ht, fun d' hd' => ?_, ?_, ?_⟩
        · rcases Store.has_settle hd' with rfl | hd'
          · exact .inl rfl
          · rcases Cache.has_of_insertAs hd' with rfl | hd'
            · exact .inl rfl
            · rw [hcache] at hd'
              exact .inr hd'
        · exact hget _ _ (by rw [hf])
        · rw [Store.nextTag_settle, hs₁]

/-- Of the documents at hand no two share nodes, and tags tell their graphs apart. -/
structure Store.Coherent (document : Document) (s : Store) : Prop where
  wellFormed : ∀ d, s.cache.AtHand document d → d.root.graph.WellFormed
  tag_lt : ∀ d, s.cache.AtHand document d → d.root.graph.tag < s.nextTag
  graph_eq : ∀ d d', s.cache.AtHand document d → s.cache.AtHand document d' →
    d.root.graph.tag = d'.root.graph.tag → d.root.graph = d'.root.graph
  document_eq : ∀ d d' v, s.cache.AtHand document d → s.cache.AtHand document d' → d.Owns v → d'.Owns v → d = d'

namespace Store.Coherent

variable {document d d' : Document} {s s' : Store} {v v' : Value}

theorem mono (h : s.Coherent document) (hs : ∀ d, s'.cache.Has d → s.cache.Has d) (hn : s.nextTag ≤ s'.nextTag) :
    s'.Coherent document := by
  have hat : ∀ d, s'.cache.AtHand document d → s.cache.AtHand document d := fun d => .imp_right (hs d)
  exact ⟨fun d hd => h.wellFormed d (hat d hd), fun d hd => Nat.lt_of_lt_of_le (h.tag_lt d (hat d hd)) hn,
    fun d d' hd hd' => h.graph_eq d d' (hat d hd) (hat d' hd'),
    fun d d' v hd hd' => h.document_eq d d' v (hat d hd) (hat d' hd')⟩

/-- A document whose graph has the next tag shares nothing with the others. -/
theorem add (h : s.Coherent document) {new : Document} (hs : ∀ d, s'.cache.Has d → d = new ∨ s.cache.Has d)
    (hw : new.root.graph.WellFormed) (ht : new.root.graph.tag = s.nextTag) (hn : s'.nextTag = s.nextTag + 1) :
    s'.Coherent document := by
  have hat : ∀ d, s'.cache.AtHand document d → d = new ∨ s.cache.AtHand document d := by
    rintro d (hd | hd)
    · exact .inr (.inl hd)
    · exact (hs d hd).imp_right .inr
  have hlt : ∀ d, s.cache.AtHand document d → d.root.graph.tag ≠ new.root.graph.tag := by
    intro d hd heq
    have := h.tag_lt d hd
    omega
  refine ⟨fun d hd => ?_, fun d hd => ?_, fun d d' hd hd' heq => ?_, fun d d' v hd hd' ho ho' => ?_⟩
  · rcases hat d hd with rfl | hd
    · exact hw
    · exact h.wellFormed d hd
  · rcases hat d hd with rfl | hd
    · omega
    · have := h.tag_lt d hd
      omega
  · rcases hat d hd with rfl | hd <;> rcases hat d' hd' with rfl | hd'
    · rfl
    · exact absurd heq.symm (hlt d' hd')
    · exact absurd heq (hlt d hd)
    · exact h.graph_eq d d' hd hd' heq
  · have hg : d.root.graph = d'.root.graph := ho.graph.symm.trans ho'.graph
    rcases hat d hd with rfl | hd <;> rcases hat d' hd' with rfl | hd'
    · rfl
    · exact absurd (congrArg Graph.tag hg.symm) (hlt d' hd')
    · exact absurd (congrArg Graph.tag hg) (hlt d hd)
    · exact h.document_eq d d' v hd hd' ho ho'

/-- The identity of a node tells the value and the document. -/
theorem eq_of_identity (h : s.Coherent document) (hd : s.cache.AtHand document d) (hd' : s.cache.AtHand document d')
    (ho : d.Owns v) (ho' : d'.Owns v') (heq : v.identity = v'.identity) : v = v' ∧ d = d' := by
  obtain ⟨htag, hid⟩ := Prod.mk.inj heq
  rw [ho.graph, ho'.graph] at htag
  have hg := h.graph_eq d d' hd hd' htag
  have hv : v = v' := by
    cases v with
    | mk g id =>
      cases v' with
      | mk g' id' =>
        have hgv : g = g' := ho.graph.trans (hg.trans ho'.graph.symm)
        subst hgv
        cases hid
        rfl
  subst hv
  exact ⟨rfl, h.document_eq d d' v hd hd' ho ho'⟩

end Store.Coherent

/-- A document alone is at hand when nothing was loaded. -/
theorem Store.coherent_start {document : Document} (hw : document.root.graph.WellFormed) {tag : Nat}
    (ht : document.root.graph.tag < tag) : (start tag).Coherent document := by
  have hat : ∀ d, (start tag).cache.AtHand document d → d = document := by
    rintro d (rfl | ⟨key, hk⟩)
    · rfl
    · cases hk
  refine ⟨fun d hd => hat d hd ▸ hw, fun d hd => hat d hd ▸ ht, fun d d' hd hd' _ => by rw [hat d hd, hat d' hd'],
    fun d d' v hd hd' _ _ => (hat d hd).trans (hat d' hd').symm⟩

/-- The value of a loaded document is well-formed. -/
theorem Resolver.wellFormed_of_answer {r : Resolver} (hl : ∀ loader ∈ r.loader?, loader.WellFormed) {loader : Loader}
    (hloader : r.loader? = some loader) {uri : String} {earlier tag : Nat} {remote : Remote} {root : Value}
    (ha : loader.answer uri earlier = .ok remote) (ht : Value.transform tag remote.heap remote.root = .ok root) :
    root.graph.WellFormed := by
  obtain ⟨-, place, hrep⟩ := transform_represents ht
  exact hrep.wellFormed (hl loader hloader ha)

theorem Resolver.keeps_coherent {r : Resolver} (hl : ∀ loader ∈ r.loader?, loader.WellFormed) (document : Document)
    (uri : Uri) : Loading.Keeps (Store.Coherent document) (r.load uri) := by
  intro s hs
  rcases r.load_cases uri s with ⟨hcache, hn⟩ |
    ⟨loader, earlier, remote, root, finalUri, hloader, -, ha, ht, hcache, -, hn⟩
  · exact hs.mono hcache hn
  · exact hs.add hcache (r.wellFormed_of_answer hl hloader ha ht) (transform_represents ht).1 hn

/-- The documents at hand are well-formed. -/
def Store.WellFormed (document : Document) (s : Store) : Prop :=
  ∀ d, s.cache.AtHand document d → d.root.graph.WellFormed

theorem Resolver.keeps_wellFormed {r : Resolver} (hl : ∀ loader ∈ r.loader?, loader.WellFormed) (document : Document)
    (uri : Uri) : Loading.Keeps (Store.WellFormed document) (r.load uri) := by
  rintro s hs d (hd | hd)
  · exact hs d (.inl hd)
  · rcases r.load_cases uri s with ⟨hcache, -⟩ |
      ⟨loader, earlier, remote, root, finalUri, hloader, -, ha, ht, hcache, -⟩
    · exact hs d (.inr (hcache d hd))
    · rcases hcache d hd with rfl | hd
      · exact r.wellFormed_of_answer hl hloader ha ht
      · exact hs d (.inr hd)

/-- What following references does to a store: documents are added to those at hand, and these stay well-formed. -/
structure Store.Extends (document : Document) (s s' : Store) : Prop where
  grows : s.cache.Grows s'.cache
  wellFormed : s.WellFormed document → s'.WellFormed document

theorem Store.Extends.refl (document : Document) (s : Store) : s.Extends document s := ⟨.refl _, id⟩

theorem Store.Extends.trans {document : Document} {s s' s'' : Store} (h : s.Extends document s')
    (h' : s'.Extends document s'') : s.Extends document s'' :=
  ⟨h.grows.trans h'.grows, fun hs => h'.wellFormed (h.wellFormed hs)⟩

theorem Resolver.extends_resolve {r : Resolver} (hl : ∀ loader ∈ r.loader?, loader.WellFormed) (document : Document)
    (v : Value) (context : Document) (s : Store) : s.Extends document (r.resolve v context s).2 :=
  ⟨(r.closed_steady.resolve v context).grows s,
    (closed_keeps (keeps_wellFormed hl document)).resolve v context s⟩

/-! ### How much can be at hand -/

section Total

variable {α : Type} (weight : α → Nat)

theorem total_cons (a : α) (l : List α) : total weight (a :: l) = weight a + total weight l := rfl

theorem total_append (l l' : List α) : total weight (l ++ l') = total weight l + total weight l' := by
  induction l with
  | nil => exact (Nat.zero_add _).symm
  | cons a l ih => rw [List.cons_append, total_cons, ih, total_cons, Nat.add_assoc]

theorem le_total_of_mem {a : α} {l : List α} (h : a ∈ l) : weight a ≤ total weight l := by
  obtain ⟨before, after, rfl⟩ := List.append_of_mem h
  rw [total_append, total_cons]
  omega

end Total

/-- Under URIs that have no document yet, a loader gives at most `n` arrays and objects, if each document is given once:
there are finitely many URIs, and for each of them a bound. -/
def Loader.Supplies (loader : Loader) (c : Cache) (n : Nat) : Prop :=
  ∃ supply : List (String × Nat), (∀ {uri earlier remote}, c.entries.lookup uri = none →
    loader.answer uri earlier = .ok remote → ∃ weight, (uri, weight) ∈ supply ∧ remote.heap.size ≤ weight) ∧
    total (·.2) supply ≤ n

/-- The trees that a loader gives are well-formed, and there are no more of them than its size says. -/
structure Loader.Finite (loader : Loader) : Prop where
  wellFormed : loader.WellFormed
  supplies : loader.Supplies .empty loader.size

theorem Loader.Supplies.mono {loader : Loader} {c c' : Cache} {n : Nat} (h : loader.Supplies c n) (hc : c.Grows c') :
    loader.Supplies c' n := by
  obtain ⟨supply, hsupply, hn⟩ := h
  exact ⟨supply, fun hnone ha => hsupply (hc.lookup_eq_none hnone) ha, hn⟩

/-- A URI counts no more once there is a document under it. -/
theorem Loader.Supplies.load {loader : Loader} {c c' : Cache} {n : Nat} (h : loader.Supplies c n) (hc : c.Grows c')
    {uri : String} {earlier : Nat} {remote : Remote} (ha : loader.answer uri earlier = .ok remote)
    (hnone : c.entries.lookup uri = none) (hsome : ∃ d, c'.entries.lookup uri = some d) :
    ∃ rest, loader.Supplies c' rest ∧ remote.heap.size + rest ≤ n := by
  obtain ⟨supply, hsupply, hn⟩ := h
  obtain ⟨weight, hmem, hweight⟩ := hsupply hnone ha
  obtain ⟨before, after, rfl⟩ := List.append_of_mem hmem
  obtain ⟨d, hd⟩ := hsome
  refine ⟨total (·.2) (before ++ after), ⟨before ++ after, fun {uri' earlier' remote'} hnone' ha' => ?_, Nat.le_refl _⟩, ?_⟩
  · obtain ⟨weight', hmem', hweight'⟩ := hsupply (hc.lookup_eq_none hnone') ha'
    refine ⟨weight', ?_, hweight'⟩
    rcases List.mem_append.mp hmem' with hmem' | hmem'
    · exact List.mem_append_left _ hmem'
    · rcases List.mem_cons.mp hmem' with heq | hmem'
      · cases heq
        cases hd.symm.trans hnone'
      · exact List.mem_append_right _ hmem'
  · rw [total_append, total_cons] at hn
    rw [total_append]
    omega

/-- A table is finite. -/
theorem Loader.finite_ofSources {sources : List Source} (h : ∀ source ∈ sources, source.WellFormed) :
    (ofSources sources).Finite := by
  refine ⟨wellFormed_ofSources h, sources.map fun source => (source.uri, source.weight), fun _ ha => ?_, ?_⟩
  · obtain ⟨source, hsource, rfl, hanswer⟩ := exists_source ha
    exact ⟨source.weight, List.mem_map_of_mem hsource, le_total_of_mem Answer.weight hanswer⟩
  · rw [total, List.foldr_map]
    exact Nat.le_refl _

/-- The identities of the arrays and objects of a graph. -/
def Graph.composites (g : Graph) : Finset (Nat × Nat) :=
  ((Finset.range g.nodes.size).filter fun id => (g.node id).isComposite).map
    ⟨fun id => (g.tag, id), fun _ _ h => (Prod.mk.inj h).2⟩

theorem Graph.mem_composites {g : Graph} {id : Nat} (h : (g.node id).isComposite = true) :
    (g.tag, id) ∈ g.composites := by
  refine Finset.mem_map.mpr ⟨id, Finset.mem_filter.mpr ⟨Finset.mem_range.mpr ?_, h⟩, rfl⟩
  by_contra hge
  rw [Graph.node, Array.getElem?_eq_none (Nat.not_lt.mp hge)] at h
  exact absurd h (by decide)

theorem Graph.card_composites_le (g : Graph) : g.composites.card ≤ g.nodes.size := by
  rw [Graph.composites, Finset.card_map]
  exact (Finset.card_filter_le _ _).trans (Nat.le_of_eq (Finset.card_range _))

/-- The value of a tree has no more arrays and objects than the tree. -/
theorem Value.Represents.card_composites_le {w : Value} {heap : Heap} {root : Item} {place : Nat → Option Nat}
    (h : w.Represents heap root place) : w.graph.composites.card ≤ heap.size := by
  rw [Graph.composites, Finset.card_map]
  calc _ ≤ ((Finset.range heap.size).image fun a => (place a).getD 0).card := by
        refine Finset.card_le_card fun id hid => ?_
        obtain ⟨a, ha⟩ := h.place_of_composite (Finset.mem_filter.mp hid).2
        have hlt := ((h.place_iff a).mp ⟨id, ha⟩).2
        exact Finset.mem_image.mpr ⟨a, Finset.mem_range.mpr hlt, by rw [ha]; rfl⟩
    _ ≤ (Finset.range heap.size).card := Finset.card_image_le
    _ = heap.size := Finset.card_range _

/-- The arrays and objects at hand, with those that the loader still holds back, are at most `n`. -/
def Store.Bounded (loader? : Option Loader) (document : Document) (n : Nat) (s : Store) : Prop :=
  ∃ (met : Finset (Nat × Nat)) (rest : Nat), (∀ d, s.cache.AtHand document d → d.root.graph.composites ⊆ met) ∧
    (∀ loader ∈ loader?, loader.Supplies s.cache rest) ∧ met.card + rest ≤ n

theorem Resolver.keeps_bounded (r : Resolver) (document : Document) (n : Nat) (uri : Uri) :
    Loading.Keeps (Store.Bounded r.loader? document n) (r.load uri) := by
  rintro s ⟨met, rest, hmet, hrest, hn⟩
  have hg := r.load_grows uri s
  rcases r.load_cases uri s with ⟨hcache, -⟩ |
    ⟨loader, earlier, remote, root, finalUri, hloader, hnone, ha, ht, hcache, hget, -⟩
  · exact ⟨met, rest, fun d hd => hmet d (hd.imp_right (hcache d)), fun loader hl => (hrest loader hl).mono hg, hn⟩
  · obtain ⟨-, place, hrep⟩ := transform_represents ht
    obtain ⟨rest', hrest', hsize⟩ := (hrest loader hloader).load hg ha hnone ⟨_, hget⟩
    refine ⟨met ∪ root.graph.composites, rest', fun d hd => ?_, fun loader' hl => ?_, ?_⟩
    · rcases hd with hd | hd
      · exact (hmet d (.inl hd)).trans Finset.subset_union_left
      · rcases hcache d hd with rfl | hd
        · exact Finset.subset_union_right
        · exact (hmet d (.inr hd)).trans Finset.subset_union_left
    · obtain rfl : loader = loader' := Option.some.inj (hloader.symm.trans hl)
      exact hrest'
    · have hcard := Finset.card_union_le met root.graph.composites
      have hroot := hrep.card_composites_le
      omega

end JsonSchema
