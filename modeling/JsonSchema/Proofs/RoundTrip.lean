import JsonSchema.Proofs.Copies
import JsonSchema.Proofs.Equality.Equivalence
import JsonSchema.Proofs.Rebuilding
import Mathlib.Data.Set.Function

/-!
From values to trees and back. Two values that mirror one tree are isomorphic (`Value.Mirrors.isomorphic`), and so are
two trees that one value mirrors (`Value.Mirrors.tree_isomorphic`): a tree is isomorphic to another if the addresses of
its cells are renamed one by one. The value of a tree mirrors it, and a value mirrors its tree; so each way undoes the
other (`toItem_transform`).

What a value is made of keeps to `Graph.Proper` however the value comes about (`Value.Made.proper`).
-/

namespace JsonSchema

/-! ### Isomorphic trees -/

/-- The item under other addresses. -/
def Item.rename (f : Nat → Nat) : Item → Item
  | .cell address => .cell (f address)
  | item => item

/-- The cell under other addresses: what it holds stands in the same order, under the same keys. -/
def Cell.rename (f : Nat → Nat) : Cell → Cell
  | .array items => .array (items.map (Item.rename f))
  | .object members => .object (members.map fun m => (m.1, m.2.rename f))

/-- `f` renames the cells that can be reached in one tree to those of another. -/
structure Heap.IsomorphicBy (f : Nat → Nat) (heap : Heap) (root : Item) (heap' : Heap) (root' : Item) : Prop where
  root_eq : root' = root.rename f
  bijective : Set.BijOn f {a | heap.Reaches root (.cell a)} {a | heap'.Reaches root' (.cell a)}
  cell : ∀ {a}, heap.Reaches root (.cell a) →
    ∃ cell, heap.cells[a]? = some cell ∧ heap'.cells[f a]? = some (cell.rename f)

/-- The trees are isomorphic as far as they can be reached. -/
def Heap.Isomorphic (heap : Heap) (root : Item) (heap' : Heap) (root' : Item) : Prop :=
  ∃ f, Heap.IsomorphicBy f heap root heap' root'

theorem Item.eq_of_scalar? {i j : Item} {node : Node} (hi : i.scalar? = some node) (hj : j.scalar? = some node) :
    i = j := by
  cases i <;> cases hi <;> cases j <;> cases hj <;> rfl

/-- Two nodes of one cell match. -/
theorem Cell.Becomes.matches {at' at'' : Item → Nat → Prop} {R : Nat → Nat → Prop} {cell : Cell} {n m : Node}
    (hn : cell.Becomes at' n) (hm : cell.Becomes at'' m)
    (hR : ∀ item ∈ cell.items, ∀ id id', at' item id → at'' item id' → R id id') : n.Matches R m := by
  cases cell with
  | array items =>
    obtain ⟨ids, rfl, hf⟩ := hn
    obtain ⟨ids', rfl, hf'⟩ := hm
    exact forall₂_trans hf.flip hf' fun id _ item hi id' h h' => hR item hi id id' h h'
  | object members =>
    obtain ⟨ids, rfl, hf⟩ := hn
    obtain ⟨ids', rfl, hf'⟩ := hm
    have hids : List.Forall₂ (fun m m' => m.1 = m'.1 ∧ R m.2 m'.2) ids ids' :=
      forall₂_trans hf.flip hf' fun n _ m hm n' h h' =>
        ⟨h.1.symm.trans h'.1, hR m.2 (List.mem_map_of_mem hm) _ _ h.2 h'.2⟩
    split <;> exact hids

/-- Two cells of one node are the same but for addresses. -/
theorem Cell.Becomes.eq_rename {at' at'' : Item → Nat → Prop} {f : Nat → Nat} {cell cell' : Cell} {n : Node}
    (h : cell.Becomes at' n) (h' : cell'.Becomes at'' n)
    (hf : ∀ item ∈ cell.items, ∀ item' ∈ cell'.items, ∀ id, at' item id → at'' item' id → item' = item.rename f) :
    cell' = cell.rename f := by
  cases cell with
  | array items =>
    obtain ⟨ids, rfl, hids⟩ := h
    cases cell' with
    | array items' =>
      obtain ⟨ids', heq, hids'⟩ := h'
      cases heq
      have hitems : List.Forall₂ (fun item item' => item.rename f = item') items items' :=
        forall₂_trans hids ((List.forall₂_and_left _ _).mpr ⟨fun _ hi' => hi', hids'⟩).flip
          fun item hi id _ item' h h' => (hf item hi item' h'.1 id h h'.2).symm
      rw [← List.forall₂_map_left_iff, List.forall₂_eq_eq_eq] at hitems
      rw [Cell.rename, hitems]
    | object members' =>
      obtain ⟨ids', heq, -⟩ := h'
      split at heq <;> cases heq
  | object members =>
    obtain ⟨ids, rfl, hids⟩ := h
    cases cell' with
    | array items' =>
      obtain ⟨ids', heq, -⟩ := h'
      split at heq <;> cases heq
    | object members' =>
      obtain ⟨ids', heq, hids'⟩ := h'
      have hsame : ids' = ids := by split at heq <;> split at heq <;> cases heq <;> rfl
      subst hsame
      have hmembers : List.Forall₂ (fun m m' => (m.1, m.2.rename f) = m') members members' :=
        forall₂_trans hids ((List.forall₂_and_left _ _).mpr ⟨fun _ hm' => hm', hids'⟩).flip fun m hm n _ m' h h' =>
          Prod.ext (h.1.trans h'.2.1.symm) (hf m.2 (List.mem_map_of_mem hm) m'.2 (List.mem_map_of_mem h'.1) n.2
            h.2 h'.2.2).symm
      rw [← List.forall₂_map_left_iff, List.forall₂_eq_eq_eq] at hmembers
      rw [Cell.rename, hmembers]

namespace Value.Mirrors

variable {v w : Value} {heap heap' : Heap} {root root' item item' : Item} {f g : Nat → Nat} {id id' : Nat}

/-- What stands for a cell is composite. -/
theorem isComposite (h : v.Mirrors heap root f) {a : Nat} (ha : heap.Reaches root (.cell a)) :
    (v.graph.node (f a)).isComposite = true := (h.bijective.mapsTo ha).2

/-- The addresses of the nodes of a value. -/
noncomputable def address (_ : v.Mirrors heap root f) : Nat → Nat :=
  Function.invFunOn f {a | heap.Reaches root (.cell a)}

theorem address_node (h : v.Mirrors heap root f) {a : Nat} (ha : heap.Reaches root (.cell a)) :
    h.address (f a) = a := h.bijective.injOn.leftInvOn_invFunOn ha

theorem bijOn_address (h : v.Mirrors heap root f) :
    Set.BijOn h.address {id | v.graph.Reaches v.id id ∧ (v.graph.node id).isComposite = true}
      {a | heap.Reaches root (.cell a)} := h.bijective.symm h.bijective.invOn_invFunOn.symm

/-- **Values of one tree are isomorphic**: the node of a cell in one value gives that in the other. -/
theorem isomorphic (h : v.Mirrors heap root f) (h' : w.Mirrors heap root g) : v.Isomorphic w := by
  have hcounterpart : ∀ {item id id'}, heap.Reaches root item → item.Placed v.graph f id →
      item.Placed w.graph g id' → Graph.Counterpart (g ∘ h.address) v.graph w.graph id id' := by
    intro item id id' hr hid hid'
    cases item with
    | cell a =>
      have hid : id = f a := hid
      have hid' : id' = g a := hid'
      rw [Graph.Counterpart, hid, if_pos (h.isComposite hr), hid', Function.comp, h.address_node hr]
    | _ =>
      rw [Graph.Counterpart, if_neg (by simp [(Item.leaf_of_scalar? hid).1])]
      exact Option.some.inj (hid'.symm.trans hid)
  refine ⟨_, hcounterpart .root h.root_placed h'.root_placed, h'.bijective.comp h.bijOn_address, ?_⟩
  intro id hid hcomposite
  obtain ⟨a, ha, rfl⟩ := h.bijective.surjOn ⟨hid, hcomposite⟩
  obtain ⟨cell, hc, hbec⟩ := h.cell ha
  obtain ⟨cell', hc', hbec'⟩ := h'.cell ha
  cases hc.symm.trans hc'
  rw [Function.comp, h.address_node ha]
  exact hbec.matches hbec' fun item hi id id' => hcounterpart (.item ha hc hi)

/-- **Trees of one value are isomorphic**: the node of a cell gives its address in the other tree. -/
theorem tree_isomorphic (h : w.Mirrors heap root f) (h' : w.Mirrors heap' root' g) :
    heap.Isomorphic root heap' root' := by
  have hrename : ∀ {item item' id}, heap.Reaches root item → heap'.Reaches root' item' → item.Placed w.graph f id →
      item'.Placed w.graph g id → item' = item.rename (h'.address ∘ f) := by
    intro item item' id hr hr' hid hid'
    have hleaf : ∀ i : Item, i.scalar? = some (w.graph.node id) → (w.graph.node id).isComposite ≠ true :=
      fun i hi => by simp [(Item.leaf_of_scalar? hi).1]
    cases item with
    | cell a =>
      have hid : id = f a := hid
      have hcomposite := hid ▸ h.isComposite hr
      cases item' with
      | cell a' =>
        have hid' : id = g a' := hid'
        rw [Item.rename, Function.comp, ← hid, hid', h'.address_node hr']
      | _ => exact absurd hcomposite (hleaf _ hid')
    | _ =>
      cases item' with
      | cell a' =>
        have hid' : id = g a' := hid'
        exact absurd (hid' ▸ h'.isComposite hr') (hleaf _ hid)
      | _ => exact Item.eq_of_scalar? hid' hid
  refine ⟨_, hrename .root .root h.root_placed h'.root_placed, h'.bijOn_address.comp h.bijective, ?_⟩
  intro a ha
  obtain ⟨cell, hc, hbec⟩ := h.cell ha
  have ha' := h'.bijOn_address.mapsTo (h.bijective.mapsTo ha)
  obtain ⟨cell', hc', hbec'⟩ := h'.cell ha'
  have hnode : g (h'.address (f a)) = f a := h'.bijective.surjOn.rightInvOn_invFunOn (h.bijective.mapsTo ha)
  rw [hnode] at hbec'
  refine ⟨cell, hc, ?_⟩
  rw [Function.comp, hc']
  exact congrArg some (hbec.eq_rename hbec' fun item hi item' hi' id => hrename (.item ha hc hi) (.item ha' hc' hi'))

end Value.Mirrors

/-! ### The graphs that are made -/

/-- The values that there are: those of trees and of JSON data, scalars, and every other node of a graph at hand. -/
inductive Value.Made : Value → Prop
  | transformed {tag : Nat} {heap : Heap} {root : Item} {w : Value} : heap.WellFormed →
      Value.transform tag heap root = .ok w → Made w
  | json (tag : Nat) (json : Json) : Made (Value.ofJson tag json)
  | scalar (tag : Nat) {node : Node} : node.isComposite = false → Made (Value.scalar tag node)
  | node {v : Value} (id : Nat) : Made v → Made (v.atNode id)

/-- The value of a well-formed tree: an object with a string under the reserved name has become a reference. -/
theorem Value.Represents.proper {w : Value} {heap : Heap} {root : Item} {place : Nat → Option Nat}
    (h : w.Represents heap root place) (hheap : heap.WellFormed) : w.graph.Proper := by
  refine ⟨h.wellFormed hheap, fun {id members child s} hn hchild hs => ?_⟩
  have hcomposite : (w.graph.node id).isComposite = true := by rw [hn]; rfl
  obtain ⟨address, hp⟩ := h.place_of_composite hcomposite
  obtain ⟨cell, -, hbec⟩ := h.becomes hp
  cases cell with
  | array items =>
    obtain ⟨ids, heq, -⟩ := hbec
    rw [hn] at heq
    cases heq
  | object cells =>
    obtain ⟨ids, heq, hf⟩ := hbec
    rw [hn] at heq
    have hlookup := lookup_rel hf referenceKey
    split at heq
    · cases heq
    · next href =>
      cases heq
      rw [hchild] at hlookup
      cases hitem : cells.lookup referenceKey with
      | none =>
        rw [hitem] at hlookup
        cases hlookup
      | some item =>
        rw [hitem, Option.rel_some_some] at hlookup
        have hstring := (h.string_iff hlookup).mp (Graph.getElem?_nodes_eq_string.mpr hs)
        exact href (Cell.isReference_object.mpr ⟨s, hitem.trans (congrArg some hstring)⟩)

namespace Graph

variable {tag : Nat} {nodes : Array Node}

/-- A proper graph in which children stand before their parents. -/
structure Ordered (tag : Nat) (nodes : Array Node) : Prop where
  proper : (Graph.mk tag nodes).Proper
  child_lt : ∀ (id : Nat), ∀ child ∈ ((Graph.mk tag nodes).node id).children, child < id

/-- A node is added after its children. -/
theorem Ordered.push (h : Ordered tag nodes) {n : Node} (hchildren : ∀ child ∈ n.children, child < nodes.size)
    (hwf : (Graph.mk tag (nodes.push n)).WellFormed)
    (hobject : ∀ members child s, n = .object members → members.lookup referenceKey = some child →
      nodes[child]? ≠ some (.string s)) : Ordered tag (nodes.push n) := by
  refine ⟨⟨hwf, fun {id members child s} hn hchild => ?_⟩, fun id child hc => ?_⟩
  · have hmem : child ∈ (Node.object members).children := List.mem_map_of_mem (mem_of_lookup hchild)
    rw [node_push] at hn ⊢
    split at hn
    · rw [if_neg (Nat.ne_of_lt (hchildren child (hn ▸ hmem)))]
      exact fun hs => hobject members child s hn hchild (getElem?_nodes_eq_string.mpr hs)
    · have hlt : id < nodes.size := by
        by_contra hle
        rw [Graph.node, Array.getElem?_eq_none (Nat.le_of_not_lt hle)] at hn
        cases hn
      rw [if_neg (Nat.ne_of_lt (Nat.lt_trans (h.child_lt id child (hn ▸ hmem)) hlt))]
      exact h.proper.object hn hchild
  · rw [node_push] at hc
    split at hc
    · next heq => exact heq ▸ hchildren child hc
    · exact h.child_lt id child hc

/-- A node that is no object is added after its children. -/
theorem Ordered.pushPlain (h : Ordered tag nodes) {n : Node} (hchildren : ∀ child ∈ n.children, child < nodes.size)
    (hn : ∀ members, n ≠ .object members ∧ n ≠ .reference members) : Ordered tag (nodes.push n) := by
  refine h.push hchildren (h.proper.push ?_ fun members heq => absurd heq (hn members).2)
    fun members _ _ heq => absurd heq (hn members).1
  cases n with
  | object members => exact absurd rfl (hn members).1
  | reference members => exact absurd rfl (hn members).2
  | _ => exact List.nodup_nil

theorem Ordered.pushLeaf (h : Ordered tag nodes) {n : Node} (hn : n.isComposite = false) : Ordered tag (nodes.push n) := by
  refine h.pushPlain (fun _ hc => ?_) fun members => ?_
  · rw [← Bool.not_eq_true] at hn
    exact absurd (Node.isComposite_of_mem_children hc) hn
  · constructor <;> rintro rfl <;> cases hn

theorem Ordered.pushMembers (h : Ordered tag nodes) {members : List (String × Nat)}
    (hmembers : ∀ m ∈ members, m.2 < nodes.size) :
    Ordered tag (nodes.push (.ofMembers nodes (Members.ofList members))) := by
  have hwf := h.proper.pushMembers members
  have hlt := Members.forall_mem_ofList (P := (· < nodes.size)) hmembers
  generalize Members.ofList members = members at hwf hlt
  refine h.push (fun child hc => ?_) hwf fun members' child s heq hchild hs => ?_
  · have hchildren : (Node.ofMembers nodes members).children = members.map (·.2) := by
      unfold Node.ofMembers
      split <;> rfl
    rw [hchildren] at hc
    obtain ⟨m, hm, rfl⟩ := List.mem_map.mp hc
    exact hlt m hm
  · unfold Node.ofMembers at heq
    split at heq
    · cases heq
    · next hnot =>
      cases heq
      exact hnot s (by rw [hchild]; exact hs)

mutual

/-- JSON data is added after what is there. -/
theorem Ordered.addJson {nodes : Array Node} (h : Ordered tag nodes) (json : Json) :
    Ordered tag (Node.addJson nodes json).2 ∧ nodes.size ≤ (Node.addJson nodes json).2.size ∧
      (Node.addJson nodes json).1 < (Node.addJson nodes json).2.size := by
  cases json with
  | array items =>
    obtain ⟨h', hsize, hids⟩ := h.addItems items
    exact ⟨h'.pushPlain hids (by simp), by simp [Node.addJson]; omega, by simp [Node.addJson]⟩
  | object members =>
    obtain ⟨h', hsize, hids⟩ := h.addMembers members
    exact ⟨h'.pushMembers hids, by simp [Node.addJson]; omega, by simp [Node.addJson]⟩
  | number n => exact ⟨h.pushLeaf (Node.isComposite_ofNumber n), by simp [Node.addJson], by simp [Node.addJson]⟩
  | _ => exact ⟨h.pushLeaf rfl, by simp [Node.addJson], by simp [Node.addJson]⟩

theorem Ordered.addItems {nodes : Array Node} (h : Ordered tag nodes) (items : List Json) :
    Ordered tag (Node.addItems nodes items).2 ∧ nodes.size ≤ (Node.addItems nodes items).2.size ∧
      ∀ id ∈ (Node.addItems nodes items).1, id < (Node.addItems nodes items).2.size := by
  cases items with
  | nil => exact ⟨h, Nat.le_refl _, by simp [Node.addItems]⟩
  | cons json rest =>
    obtain ⟨h₁, hsize₁, hid⟩ := h.addJson json
    obtain ⟨h₂, hsize₂, hids⟩ := h₁.addItems rest
    exact ⟨h₂, Nat.le_trans hsize₁ hsize₂, List.forall_mem_cons.mpr ⟨Nat.lt_of_lt_of_le hid hsize₂, hids⟩⟩

theorem Ordered.addMembers {nodes : Array Node} (h : Ordered tag nodes) (members : List (String × Json)) :
    Ordered tag (Node.addMembers nodes members).2 ∧ nodes.size ≤ (Node.addMembers nodes members).2.size ∧
      ∀ m ∈ (Node.addMembers nodes members).1, m.2 < (Node.addMembers nodes members).2.size := by
  cases members with
  | nil => exact ⟨h, Nat.le_refl _, by simp [Node.addMembers]⟩
  | cons m rest =>
    obtain ⟨h₁, hsize₁, hid⟩ := h.addJson m.2
    obtain ⟨h₂, hsize₂, hids⟩ := h₁.addMembers rest
    exact ⟨h₂, Nat.le_trans hsize₁ hsize₂, List.forall_mem_cons.mpr ⟨Nat.lt_of_lt_of_le hid hsize₂, hids⟩⟩

end

theorem ordered_empty (tag : Nat) : Ordered tag #[] := by
  refine ⟨⟨⟨fun id => ?_, fun {id members} hn => ?_⟩, fun {id members child s} hn => ?_⟩, fun id child hc => ?_⟩
  · exact List.nodup_nil
  · cases hn
  · cases hn
  · cases hc

end Graph

namespace Value

/-- However a value comes about, the references of its graph are the objects with a string under the reserved name. -/
theorem Made.proper {v : Value} (h : v.Made) : v.graph.Proper := by
  induction h with
  | transformed hheap hw =>
    obtain ⟨-, place, hplace⟩ := transform_represents hw
    exact hplace.proper hheap
  | json tag json => exact ((Graph.ordered_empty tag).addJson json).1.proper
  | scalar tag hn => exact ((Graph.ordered_empty tag).pushLeaf hn).proper
  | node id _ ih => exact ih

/-! ### There and back -/

variable {v w : Value} {heap : Heap} {root item : Item} {f : Nat → Nat}

theorem eq_of_isomorphic (hv : v.graph.WellFormed) (hw : w.graph.WellFormed) (h : v.Isomorphic w) (hnan : v.NaNFree) :
    v.eq w = true := by
  obtain ⟨R, hR, -⟩ := (copied_of_isomorphic hv hw h).paired
  have hreach := hR.reaching
  refine eq_iff.2 ⟨_, hreach.root, fun hab => (hreach.node hab).imp_right ?_, hreach.right_unique,
    hreach.left_unique⟩
  rintro ⟨⟨hn, hsame⟩, hholds, -⟩
  rw [hsame]
  exact Node.scalarEq_refl hn fun hx => hnan (hx ▸ hholds)

/-- Whatever can be reached in a tree that a value mirrors has a node. -/
theorem Mirrors.exists_placed (h : v.Mirrors heap root f) (hr : heap.Reaches root item) :
    ∃ id, item.Placed v.graph f id := by
  cases hr with
  | root => exact ⟨v.id, h.root_placed⟩
  | @item a cell _ ha hc hi =>
    obtain ⟨cell', hc', hbec⟩ := h.cell ha
    cases hc.symm.trans hc'
    obtain ⟨id, -, hid⟩ := exists_right_of_forall₂ hbec.children hi
    exact ⟨id, hid⟩

/-- A tree that a proper value mirrors is turned into a value, and this one is isomorphic. -/
theorem Mirrors.transform (h : v.Mirrors heap root f) (hv : v.graph.Proper) (tag : Nat) :
    ∃ w, Value.transform tag heap root = .ok w ∧ w.graph.WellFormed ∧ v.Isomorphic w := by
  have hin : ∀ item, heap.Reaches root item → item.Within heap := fun item hr => by
    cases item with
    | cell a =>
      obtain ⟨cell, hc, -⟩ := h.cell hr
      exact (Array.getElem?_eq_some_iff.mp hc).1
    | _ => trivial
  have hkeys : ∀ (a : Nat) (members : List (String × Item)), heap.Reaches root (.cell a) →
      heap.cells[a]? = some (.object members) → (members.map (·.1)).Nodup := by
    intro a members ha hc
    obtain ⟨cell, hc', hbec⟩ := h.cell ha
    cases hc.symm.trans hc'
    obtain ⟨ids, hn, hf⟩ := hbec
    have hmembers : (v.graph.node (f a)).members = ids := by rw [hn]; split <;> rfl
    rw [← map_fst_of_forall₂ hf, ← hmembers]
    exact hv.nodup_keys (f a)
  cases hw : Value.transform tag heap root with
  | error kind =>
    obtain ⟨item, hr, hu⟩ := transform_eq_error hw
    obtain ⟨id, hid⟩ := h.exists_placed hr
    cases item <;> cases hu <;> cases hid
  | ok w =>
    obtain ⟨-, place, hplace⟩ := transform_represents hw
    exact ⟨w, rfl, hplace.wellFormed_of_reaches hkeys, h.isomorphic (hplace.mirrors hin)⟩

end Value

/-- **Values and trees are turned into each other and back.** A value gives a tree in new cells, in a loop that comes to
an end; the tree is turned into a value again, which is isomorphic to the first one and, unless a NaN can be reached,
equal to it. A tree that was built cell by cell and is turned into a value gives a tree that is isomorphic to the first
one. -/
theorem toItem_transform {v : Value} (hv : v.Made) {heap : Heap} {root : Item} (hheap : heap.Built)
    (hroot : root.Within heap) (tag : Nat) (other : Heap) :
    (∀ outcome, v.Rebuilds other outcome ↔ outcome = v.toItem other) ∧
    (∀ a < other.size, (v.toItem other).2.cells[a]? = other.cells[a]?) ∧
    (∃ w, Value.transform tag (v.toItem other).2 (v.toItem other).1 = .ok w ∧ v.Isomorphic w ∧
      (v.NaNFree → v.eq w = true ∧ w.eq v = true)) ∧
    ∀ w, Value.transform tag heap root = .ok w → heap.Isomorphic root (w.toItem other).2 (w.toItem other).1 := by
  obtain ⟨hends, hold, f, hmirror⟩ := Value.toItem_spec hv.proper other
  obtain ⟨w, hw, hwf, hiso⟩ := hmirror.transform hv.proper tag
  refine ⟨hends, hold, ⟨w, hw, hiso, fun hnan => ?_⟩, fun w hw => ?_⟩
  · have heq := Value.eq_of_isomorphic hv.proper.toWellFormed hwf hiso hnan
    exact ⟨heq, Value.eq_symm hv.proper.toWellFormed heq⟩
  · obtain ⟨-, place, hplace⟩ := transform_represents hw
    have hback := hplace.mirrors fun _ => hheap.closed.within_of_reaches hroot
    obtain ⟨-, -, g, hother⟩ := Value.toItem_spec (hplace.proper hheap.wellFormed) other
    exact hback.tree_isomorphic hother

/-- The value of the knotted tree. -/
def knottedValue : Value :=
  ⟨⟨5, #[.array [1, 1], .reference [("up", 0), (referenceKey, 2)], .string "#/0"]⟩, 0⟩

theorem transform_knottedHeap : Value.transform 5 knottedHeap (.cell 0) = .ok knottedValue := rfl

theorem toItem_transform_knotted :
    knottedValue.Made ∧ knottedHeap.Built ∧ (Item.cell 0).Within knottedHeap ∧
    (∃ w, Value.transform 5 (knottedValue.toItem .empty).2 (knottedValue.toItem .empty).1 = .ok w ∧
      knottedValue.Isomorphic w ∧ knottedValue.eq w = true) ∧
    knottedHeap.Isomorphic (.cell 0) (knottedValue.toItem .empty).2 (knottedValue.toItem .empty).1 := by
  have hmade : knottedValue.Made := .transformed built_knottedHeap.wellFormed transform_knottedHeap
  have hroot : (Item.cell 0).Within knottedHeap := by decide
  have hnan : knottedValue.NaNFree := fun ⟨id, _, hn⟩ => by
    match id with
    | 0 | 1 | 2 | id + 3 => cases hn
  obtain ⟨-, -, ⟨w, hw, hiso, heq⟩, hback⟩ := toItem_transform hmade built_knottedHeap hroot 5 .empty
  exact ⟨hmade, built_knottedHeap, hroot, ⟨w, hw, hiso, (heq hnan).1⟩, hback _ transform_knottedHeap⟩

end JsonSchema
