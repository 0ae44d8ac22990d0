import JsonSchema.Proofs.JsonGraph

/-!
JSON data as a value, in two ways: it is added to a graph node by node, or to a heap cell by cell and then transformed.
The two values are isomorphic, both show the data, and neither shares anything (`Value.ofJson_isomorphic_transform`).

The two ways are followed side by side (`Twin.Inv`): what is added to the graph stands for what is added to the heap,
whatever numbers and addresses it is given. What the graph shows, and that it shares nothing, goes over to the other
value with the isomorphism.
-/

namespace JsonSchema

/-- Of a number the item and the node are of the same kind. -/
theorem Item.scalar?_ofNumber (n : Json.Number) : (Item.ofNumber n).scalar? = some (Node.ofNumber n) := by
  unfold Item.ofNumber Node.ofNumber
  cases n.asInteger? <;> rfl

/-! ### Side by side -/

/-- A graph and a heap to which the same data is added, with the node of every cell that was added. -/
structure Twin where
  nodes : Array Node
  heap : Heap
  place : Nat → Nat

namespace Twin

variable {base : Nat} {t t' t'' : Twin} {item : Item} {id : Nat}

/-- The node stands for the item, which is a scalar or one of the new cells. -/
def Stands (base : Nat) (t : Twin) : Item → Nat → Prop
  | .cell a, id => base ≤ a ∧ a < t.heap.size ∧ t.place a = id
  | item, id => item.scalar?.isSome ∧ t.nodes[id]? = item.scalar?

/-- Every new cell has a node that lists what it holds, and they were added in the same order. -/
structure Inv (base : Nat) (t : Twin) : Prop where
  base_le : base ≤ t.heap.size
  becomes : ∀ {a : Nat} {cell : Cell}, base ≤ a → t.heap.cells[a]? = some cell →
    ∃ n, t.nodes[t.place a]? = some n ∧ cell.Becomes (t.Stands base) n
  ascending : ∀ {a b : Nat}, base ≤ a → a < b → b < t.heap.size → t.place a < t.place b

/-- What stands in a twin stays as it is. -/
structure Grows (t t' : Twin) : Prop where
  node : ∀ {id : Nat} {n : Node}, t.nodes[id]? = some n → t'.nodes[id]? = some n
  size_le : t.heap.size ≤ t'.heap.size
  place : ∀ {a : Nat}, a < t.heap.size → t'.place a = t.place a

theorem Grows.refl (t : Twin) : t.Grows t := ⟨id, Nat.le_refl _, fun _ => rfl⟩

theorem Grows.trans (h : t.Grows t') (h' : t'.Grows t'') : t.Grows t'' :=
  ⟨fun hn => h'.node (h.node hn), Nat.le_trans h.size_le h'.size_le,
    fun ha => (h'.place (Nat.lt_of_lt_of_le ha h.size_le)).trans (h.place ha)⟩

theorem Stands.mono (hs : t.Stands base item id) (h : t.Grows t') : t'.Stands base item id := by
  have hscalar : ∀ {n : Option Node}, n.isSome ∧ t.nodes[id]? = n → n.isSome ∧ t'.nodes[id]? = n := by
    rintro n ⟨hsome, hn⟩
    obtain ⟨n, rfl⟩ := Option.isSome_iff_exists.mp hsome
    exact ⟨hsome, h.node hn⟩
  cases item with
  | cell a => exact ⟨hs.1, Nat.lt_of_lt_of_le hs.2.1 h.size_le, (h.place hs.2.1).trans hs.2.2⟩
  | _ => exact hscalar hs

/-- A string stands for a string, and for nothing else. -/
theorem Inv.string_iff (h : t.Inv base) (hs : t.Stands base item id) {s : String} :
    t.nodes[id]? = some (.string s) ↔ item = .string s := by
  cases item with
  | cell a =>
    obtain ⟨hbase, ha, rfl⟩ := hs
    obtain ⟨n, hn, hbec⟩ := h.becomes hbase (Array.getElem?_eq_getElem ha)
    have hcomposite := Cell.isComposite_of_becomes hbec
    simp only [hn, Option.some.injEq, reduceCtorEq, iff_false]
    rintro rfl
    cases hcomposite
  | bytes content => exact absurd hs.1 (by simp [Item.scalar?])
  | dateTime text => exact absurd hs.1 (by simp [Item.scalar?])
  | _ => simp [hs.2, Item.scalar?]

/-- A scalar is added to the graph alone. -/
theorem Inv.scalar (h : t.Inv base) {n : Node} (hitem : item.scalar? = some n) :
    let t' : Twin := { t with nodes := t.nodes.push n }
    t'.Inv base ∧ t.Grows t' ∧ t'.Stands base item t.nodes.size := by
  have hgrows : t.Grows { t with nodes := t.nodes.push n } := by
    refine ⟨fun {id m} hm => ?_, Nat.le_refl _, fun _ => rfl⟩
    have hlt := (Array.getElem?_eq_some_iff.mp hm).1
    rw [Array.getElem?_push, if_neg (Nat.ne_of_lt hlt), hm]
  refine ⟨⟨h.base_le, fun ha hc => ?_, h.ascending⟩, hgrows, ?_⟩
  · obtain ⟨m, hm, hbec⟩ := h.becomes ha hc
    exact ⟨m, hgrows.node hm, hbec.mono fun _ _ hs => hs.mono hgrows⟩
  · cases item with
    | cell a => cases hitem
    | _ => exact ⟨by rw [hitem]; rfl, by rw [hitem]; exact Array.getElem?_push_size⟩

/-- The twin with a cell and its node. -/
def close (t : Twin) (cell : Cell) (n : Node) : Twin where
  nodes := t.nodes.push n
  heap := (t.heap.allocate cell).2
  place := Function.update t.place t.heap.size t.nodes.size

theorem Inv.close (h : t.Inv base) (cell : Cell) {n : Node} (hcell : cell.Becomes (t.Stands base) n) :
    (t.close cell n).Inv base ∧ t.Grows (t.close cell n) ∧
      (t.close cell n).Stands base (.cell t.heap.size) t.nodes.size := by
  have hsize : (t.close cell n).heap.size = t.heap.size + 1 := Array.size_push _
  have hplace : ∀ a, (t.close cell n).place a = if a = t.heap.size then t.nodes.size else t.place a := fun a =>
    Function.update_apply _ _ _ _
  have hgrows : t.Grows (t.close cell n) := by
    refine ⟨fun {id m} hm => ?_, by omega, fun ha => by rw [hplace, if_neg (Nat.ne_of_lt ha)]⟩
    have hlt := (Array.getElem?_eq_some_iff.mp hm).1
    rw [Twin.close, Array.getElem?_push, if_neg (Nat.ne_of_lt hlt), hm]
  have hlt : ∀ {a}, base ≤ a → a < t.heap.size → t.place a < t.nodes.size := fun hbase ha => by
    obtain ⟨m, hm, -⟩ := h.becomes hbase (Array.getElem?_eq_getElem ha)
    exact (Array.getElem?_eq_some_iff.mp hm).1
  refine ⟨⟨Nat.le_trans h.base_le hgrows.size_le, fun {a c} hbase hc => ?_, fun {a b} hbase hab hb => ?_⟩, hgrows, ?_⟩
  · rw [Twin.close, Heap.allocate, Array.getElem?_push] at hc
    split at hc
    · next ha =>
      cases hc
      rw [hplace, if_pos (show a = t.heap.size from ha)]
      exact ⟨n, Array.getElem?_push_size, hcell.mono fun _ _ hs => hs.mono hgrows⟩
    · next ha =>
      obtain ⟨m, hm, hbec⟩ := h.becomes hbase hc
      rw [hplace, if_neg (show ¬a = t.heap.size from ha)]
      exact ⟨m, hgrows.node hm, hbec.mono fun _ _ hs => hs.mono hgrows⟩
  · rw [hplace, hplace, if_neg (by omega)]
    split
    · next heq => exact hlt hbase (heq ▸ hab)
    · exact h.ascending hbase hab (by omega)
  · exact ⟨h.base_le, by omega, by rw [hplace, if_pos rfl]⟩

mutual

/-- What is added for the data on one side stands for what is added on the other. -/
theorem Inv.addJson {t : Twin} (h : t.Inv base) (json : Json) :
    ∃ place, let t' : Twin := ⟨(Node.addJson t.nodes json).2, (t.heap.addJson json).2, place⟩
      t'.Inv base ∧ t.Grows t' ∧ t'.Stands base (t.heap.addJson json).1 (Node.addJson t.nodes json).1 := by
  cases json with
  | array items =>
    obtain ⟨place, h', hgrows, hitems⟩ := h.addItems items
    obtain ⟨h'', hgrows', hstands⟩ := h'.close (.array _) ⟨_, rfl, hitems⟩
    exact ⟨_, h'', hgrows.trans hgrows', hstands⟩
  | object members =>
    obtain ⟨place, h', hgrows, hmembers⟩ := h.addMembers members
    have hmembers := Members.forall₂_ofList hmembers
    obtain ⟨h'', hgrows', hstands⟩ := h'.close (.object _)
      ⟨_, Node.ofMembers_eq hmembers fun hs => h'.string_iff hs, hmembers⟩
    exact ⟨_, h'', hgrows.trans hgrows', hstands⟩
  | number n => exact ⟨_, h.scalar (Item.scalar?_ofNumber n)⟩
  | _ => exact ⟨_, h.scalar rfl⟩

theorem Inv.addItems {t : Twin} (h : t.Inv base) (items : List Json) :
    ∃ place, let t' : Twin := ⟨(Node.addItems t.nodes items).2, (t.heap.addItems items).2, place⟩
      t'.Inv base ∧ t.Grows t' ∧
        List.Forall₂ (t'.Stands base) (t.heap.addItems items).1 (Node.addItems t.nodes items).1 := by
  cases items with
  | nil => exact ⟨t.place, h, .refl t, .nil⟩
  | cons json rest =>
    obtain ⟨place, h', hgrows, hstands⟩ := h.addJson json
    obtain ⟨place', h'', hgrows', hrest⟩ := h'.addItems rest
    exact ⟨place', h'', hgrows.trans hgrows', .cons (hstands.mono hgrows') hrest⟩

theorem Inv.addMembers {t : Twin} (h : t.Inv base) (members : List (String × Json)) :
    ∃ place, let t' : Twin := ⟨(Node.addMembers t.nodes members).2, (t.heap.addMembers members).2, place⟩
      t'.Inv base ∧ t.Grows t' ∧
        List.Forall₂ (fun m n => m.1 = n.1 ∧ t'.Stands base m.2 n.2) (t.heap.addMembers members).1
          (Node.addMembers t.nodes members).1 := by
  cases members with
  | nil => exact ⟨t.place, h, .refl t, .nil⟩
  | cons m rest =>
    obtain ⟨place, h', hgrows, hstands⟩ := h.addJson m.2
    obtain ⟨place', h'', hgrows', hrest⟩ := h'.addMembers rest
    exact ⟨place', h'', hgrows.trans hgrows', .cons ⟨rfl, hstands.mono hgrows'⟩ hrest⟩

end

/-- The new cells lead to new cells only. -/
theorem Inv.stands_of_reaches (h : t.Inv base) {root : Item} (hroot : t.Stands base root id)
    (hr : t.heap.Reaches root item) : ∃ id, t.Stands base item id := by
  induction hr with
  | root => exact ⟨id, hroot⟩
  | @item a cell item _ hc hi ih =>
    obtain ⟨_, hbase, -, -⟩ := ih
    obtain ⟨n, -, hbec⟩ := h.becomes hbase hc
    obtain ⟨child, -, hchild⟩ := exists_right_of_forall₂ hbec.children hi
    exact ⟨child, hchild⟩

theorem Stands.placed (hs : t.Stands base item id) (tag : Nat) : item.Placed ⟨tag, t.nodes⟩ t.place id := by
  have hscalar : ∀ {n : Option Node}, n.isSome ∧ t.nodes[id]? = n → n = some ((Graph.mk tag t.nodes).node id) := by
    rintro n ⟨hsome, hn⟩
    obtain ⟨n, rfl⟩ := Option.isSome_iff_exists.mp hsome
    rw [Graph.node, hn]
    rfl
  cases item with
  | cell a => exact hs.2.2.symm
  | _ => exact hscalar hs

end Twin

/-- A one-to-one map that takes every cell to a node of its own kind takes the tree to the value. -/
theorem Value.Mirrors.of_becomes {w : Value} {heap : Heap} {root : Item} {f : Nat → Nat}
    (hroot : root.Placed w.graph f w.id) (hinj : Set.InjOn f {a | heap.Reaches root (.cell a)})
    (hcell : ∀ {a}, heap.Reaches root (.cell a) → ∃ cell, heap.cells[a]? = some cell ∧
      cell.Becomes (Item.Placed w.graph f) (w.graph.node (f a))) : w.Mirrors heap root f := by
  have hreaches : ∀ {item}, heap.Reaches root item → ∃ id, item.Placed w.graph f id ∧ w.graph.Reaches w.id id := by
    intro item hr
    induction hr with
    | root => exact ⟨w.id, hroot, .root⟩
    | @item a cell item hr hc hi ih =>
      obtain ⟨id, hid, hreach⟩ := ih
      obtain ⟨cell', hc', hbec⟩ := hcell hr
      cases hc.symm.trans hc'
      obtain ⟨child, hmem, hchild⟩ := exists_right_of_forall₂ hbec.children hi
      have hid : id = f a := hid
      exact ⟨child, hchild, .child hreach (hid ▸ hmem)⟩
  have hback : ∀ {id}, w.graph.Reaches w.id id → ∃ item, heap.Reaches root item ∧ item.Placed w.graph f id := by
    intro id hr
    induction hr with
    | root => exact ⟨root, .root, hroot⟩
    | @child id child _ hmem ih =>
      obtain ⟨item, hitem, hplaced⟩ := ih
      cases item with
      | cell a =>
        have hid : id = f a := hplaced
        obtain ⟨cell, hc, hbec⟩ := hcell hitem
        obtain ⟨item', hi, hplaced'⟩ := exists_left_of_forall₂ hbec.children (hid ▸ hmem)
        exact ⟨item', .item hitem hc hi, hplaced'⟩
      | _ =>
        rw [(Item.leaf_of_scalar? hplaced).2] at hmem
        cases hmem
  refine ⟨hroot, ⟨fun a ha => ?_, hinj, fun id ⟨hr, hcomposite⟩ => ?_⟩, hcell⟩
  · obtain ⟨id, hid, hr⟩ := hreaches ha
    have hid : id = f a := hid
    obtain ⟨cell, -, hbec⟩ := hcell ha
    exact ⟨hid ▸ hr, Cell.isComposite_of_becomes hbec⟩
  · obtain ⟨item, hitem, hplaced⟩ := hback hr
    cases item with
    | cell a => exact ⟨a, hitem, hplaced.symm⟩
    | _ =>
      rw [(Item.leaf_of_scalar? hplaced).1] at hcomposite
      cases hcomposite

/-- The value that is built from JSON data mirrors the tree of the data. -/
theorem Value.mirrors_ofJson (tag : Nat) (json : Json) (heap : Heap) :
    ∃ f, (ofJson tag json).Mirrors (heap.addJson json).2 (heap.addJson json).1 f := by
  have hstart : Twin.Inv heap.size ⟨#[], heap, fun a => a⟩ := by
    refine ⟨Nat.le_refl _, fun ha hc => ?_, fun ha hab hb => ?_⟩
    · exact absurd (Array.getElem?_eq_some_iff.mp hc).1 (Nat.not_lt.mpr ha)
    · have hb : _ < heap.size := hb
      omega
  obtain ⟨f, h, -, hroot⟩ := hstart.addJson json
  refine ⟨f, .of_becomes (hroot.placed tag) (fun a ha b hb heq => ?_) fun {a} ha => ?_⟩
  · obtain ⟨_, hbase, hlt, -⟩ := h.stands_of_reaches hroot ha
    obtain ⟨_, hbase', hlt', -⟩ := h.stands_of_reaches hroot hb
    rcases Nat.lt_trichotomy a b with hab | hab | hab
    · exact absurd heq (Nat.ne_of_lt (h.ascending hbase hab hlt'))
    · exact hab
    · exact absurd heq (Nat.ne_of_gt (h.ascending hbase' hab hlt))
  · obtain ⟨_, hbase, hlt, -⟩ := h.stands_of_reaches hroot ha
    have hc := Array.getElem?_eq_getElem hlt
    obtain ⟨n, hn, hbec⟩ := h.becomes hbase hc
    have hnode : (ofJson tag json).graph.node (f a) = n := by
      have hn : (ofJson tag json).graph.nodes[f a]? = some n := hn
      rw [Graph.node, hn]
      rfl
    exact ⟨_, hc, hnode ▸ hbec.mono fun _ _ hs => hs.placed tag⟩

/-! ### What an isomorphism keeps -/

theorem Node.Matches.children {R : Nat → Nat → Prop} {n m : Node} (h : n.Matches R m) :
    List.Forall₂ R n.children m.children := by
  rcases matches_cases h with
    ⟨ids, ids', rfl, rfl, hids⟩ | ⟨l, r, rfl, rfl, hmembers⟩ | ⟨l, r, rfl, rfl, hmembers⟩ | ⟨hn, rfl⟩
  · exact hids
  · rw [Node.children, Node.children, List.forall₂_map_left_iff, List.forall₂_map_right_iff]
    exact hmembers.imp fun _ _ hm => hm.2
  · rw [Node.children, Node.children, List.forall₂_map_left_iff, List.forall₂_map_right_iff]
    exact hmembers.imp fun _ _ hm => hm.2
  · have hnil : m.children = [] := by cases m <;> first | rfl | cases hn
    rw [hnil]
    exact .nil

namespace Value.IsomorphicBy

variable {v w : Value} {f : Nat → Nat}

/-- A node with children is the image of one, and its children are the counterparts of the children there. -/
theorem exists_preimage (h : IsomorphicBy f v w) {b c : Nat} (hr : w.graph.Reaches w.id b) {j : Nat}
    (hc : (w.graph.node b).children[j]? = some c) (hcomposite : (w.graph.node c).isComposite = true) :
    ∃ a c', v.graph.Reaches v.id a ∧ b = f a ∧ (v.graph.node a).children[j]? = some c' ∧ c = f c' ∧
      (v.graph.node c').isComposite = true := by
  have hb := Node.isComposite_of_mem_children (List.mem_of_getElem? hc)
  obtain ⟨a, ⟨ha, hacomposite⟩, rfl⟩ := h.bijective.surjOn ⟨hr, hb⟩
  have hrel := rel_getElem? (h.node ha hacomposite).children j
  rw [hc] at hrel
  cases hc' : (v.graph.node a).children[j]? with
  | none =>
    rw [hc'] at hrel
    cases hrel
  | some c' =>
    rw [hc', Option.rel_some_some] at hrel
    exact ⟨a, c', ha, rfl, hc', hrel.eq_image (hrel.isComposite hcomposite), hrel.isComposite hcomposite⟩

theorem unshared (h : IsomorphicBy f v w) (hv : v.Unshared) : w.Unshared := by
  refine ⟨fun {b} hr hroot hc => ?_, fun {b b' i j c} hr hr' hi hj hcomposite => ?_⟩
  · obtain ⟨j, hj⟩ := List.mem_iff_getElem?.mp hc
    obtain ⟨a, c', ha, rfl, hc', heq, hcomposite⟩ := h.exists_preimage hr hj hroot
    have hvroot : v.node.isComposite = true := h.root.isComposite hroot
    have hmem := List.mem_of_getElem? hc'
    have hid : v.id = c' := h.bijective.injOn ⟨.root, hvroot⟩ ⟨.child ha hmem, hcomposite⟩
      ((h.root.eq_image hvroot).symm.trans heq)
    exact hv.root ha hvroot (hid ▸ hmem)
  · obtain ⟨a, c₁, ha, rfl, hc₁, heq₁, hcomposite₁⟩ := h.exists_preimage hr hi hcomposite
    obtain ⟨a', c₂, ha', rfl, hc₂, heq₂, hcomposite₂⟩ := h.exists_preimage hr' hj hcomposite
    have hsame : c₁ = c₂ := h.bijective.injOn ⟨.child ha (List.mem_of_getElem? hc₁), hcomposite₁⟩
      ⟨.child ha' (List.mem_of_getElem? hc₂), hcomposite₂⟩ (heq₁.symm.trans heq₂)
    obtain ⟨rfl, rfl⟩ := hv.child ha ha' hc₁ (hsame ▸ hc₂) hcomposite₁
    exact ⟨rfl, rfl⟩

theorem shows (h : IsomorphicBy f v w) {json : Json} {a b : Nat} (hs : v.graph.Shows json a)
    (ha : v.graph.Reaches v.id a) (hab : Graph.Counterpart f v.graph w.graph a b) : w.graph.Shows json b := by
  have hscalar : ∀ {a b n}, Graph.Counterpart f v.graph w.graph a b → v.graph.node a = n → n.isComposite = false →
      w.graph.node b = n := fun hab hn hleaf => (hab.node_eq (by rw [hn, hleaf]; simp)).trans hn
  induction hs generalizing b with
  | null hn => exact .null (hscalar hab hn rfl)
  | bool hn => exact .bool (hscalar hab hn rfl)
  | integer hinteger hn => exact .integer hinteger (hscalar hab hn rfl)
  | number hnone hn => exact .number hnone (hscalar hab hn rfl)
  | string hn => exact .string (hscalar hab hn rfl)
  | @array items ids a hn hlength _ ih =>
    have hcomposite : (v.graph.node a).isComposite = true := by rw [hn]; rfl
    have hitems : List.Forall₂ (fun json c => ∀ b, Graph.Counterpart f v.graph w.graph c b → w.graph.Shows json b)
        items ids := List.forall₂_iff_zip.mpr ⟨hlength, fun hm b => ih hm (.child ha (by
          rw [hn]
          exact (List.of_mem_zip hm).2))⟩
    have hmatch := h.node ha hcomposite
    rw [← hab.eq_image hcomposite, hn] at hmatch
    rcases Node.matches_cases hmatch with ⟨_, ids', heq, hb, hids⟩ | ⟨_, _, heq, -⟩ | ⟨_, _, heq, -⟩ | ⟨hleaf, -⟩
    · cases heq
      exact .of_items hb (forall₂_trans hitems hids fun _ _ _ _ _ hjson hcb => hjson _ hcb)
    · cases heq
    · cases heq
    · cases hleaf
  | @object members ids a hn hkeys _ ih =>
    have hkind : v.graph.node a = .object ids ∨ v.graph.node a = .reference ids := hn.imp And.left And.left
    have hcomposite : (v.graph.node a).isComposite = true := by rcases hkind with h | h <;> rw [h] <;> rfl
    have hmem : ∀ {m n}, (m, n) ∈ (Members.ofList members).zip ids → n.2 ∈ (v.graph.node a).children := fun hm => by
      rcases hkind with h | h <;> rw [h] <;> exact List.mem_map_of_mem (List.of_mem_zip hm).2
    have hmembers : List.Forall₂ (fun m n => m.1 = n.1 ∧
        ∀ b, Graph.Counterpart f v.graph w.graph n.2 b → w.graph.Shows m.2 b) (Members.ofList members) ids := by
      rw [← List.forall₂_eq_eq_eq, List.forall₂_map_left_iff, List.forall₂_map_right_iff,
        List.forall₂_iff_zip] at hkeys
      exact List.forall₂_iff_zip.mpr ⟨hkeys.1, fun hm => ⟨hkeys.2 hm, fun b => ih hm (.child ha (hmem hm))⟩⟩
    have hmatch := h.node ha hcomposite
    rw [← hab.eq_image hcomposite] at hmatch
    have hshows : ∀ {ids' : List (String × Nat)},
        List.Forall₂ (fun n n' => n.1 = n'.1 ∧ Graph.Counterpart f v.graph w.graph n.2 n'.2) ids ids' →
        List.Forall₂ (fun m n => m.1 = n.1 ∧ w.graph.Shows m.2 n.2) (Members.ofList members) ids' := fun hids =>
      forall₂_trans hmembers hids fun _ _ _ _ _ hm hn => ⟨hm.1.trans hn.1, hm.2 _ hn.2⟩
    rcases Node.matches_cases hmatch with ⟨_, _, heq, -⟩ | ⟨_, ids', heq, hb, hids⟩ | ⟨_, ids', heq, hb, hids⟩ | hleaf
    · rcases hkind with h | h <;> cases h.symm.trans heq
    · rcases hn with ⟨hn, hno⟩ | ⟨hn, -⟩ <;> cases hn.symm.trans heq
      exact .object_of (.inl ⟨hb, hno⟩) (hshows hids)
    · rcases hn with ⟨hn, -⟩ | ⟨hn, hyes⟩ <;> cases hn.symm.trans heq
      exact .object_of (.inr ⟨hb, hyes⟩) (hshows hids)
    · rw [hleaf.1] at hcomposite
      cases hcomposite

end Value.IsomorphicBy

/-- **The two ways from JSON data to a value agree.** The tree that is added to a heap for the data is turned into a
value, and this value and the one that is built from the data at once are isomorphic. Both show the data, and in neither
does an array or object stand in two places. -/
theorem Value.ofJson_isomorphic_transform (json : Json) (tag tag' : Nat) (heap : Heap) :
    ∃ w, Value.transform tag' (heap.addJson json).2 (heap.addJson json).1 = .ok w ∧
      (ofJson tag json).Isomorphic w ∧
      (ofJson tag json).Unshared ∧ w.Unshared ∧
      (ofJson tag json).graph.Shows json (ofJson tag json).id ∧ w.graph.Shows json w.id := by
  obtain ⟨f, hmirror⟩ := mirrors_ofJson tag json heap
  obtain ⟨w, hw, -, g, hiso⟩ := hmirror.transform ((Graph.ordered_empty tag).addJson json).1.proper tag'
  have hunshared := unshared_ofJson tag json
  have hshows := shows_ofJson tag json
  exact ⟨w, hw, ⟨g, hiso⟩, hunshared, hiso.unshared hunshared, hshows, hiso.shows hshows .root hiso.root⟩

end JsonSchema
