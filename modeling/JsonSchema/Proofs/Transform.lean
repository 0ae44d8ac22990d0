import JsonSchema.Value.Transform
import Mathlib.Data.List.Forall2

/-!
The value of a document tree. `Value.transform` numbers the cells as it meets them and fills their nodes later;
`Value.Represents` says what comes out of it: every cell that can be reached has exactly one node, no composite
node is of any other origin, scalars are copied, and a node lists its children in the order of the cell
(`transform_represents`). It fails exactly when bytes or a native date-time can be reached
(`transform_eq_error`, `Value.Represents.scalar?_or_cell`).

The invariant (`Transformation.Inv`) holds of a transformation between any two items: a registered cell is
pending, is the one whose children are being looked at, or is filled. Looking at an item only adds to the state
(`Transformation.Grows`), so what stood for an item stands for it ever after; and every registration trades a cell
without node for a pending one, which is why fuel for every cell empties the list.
-/

namespace JsonSchema

/-! ### Reachability -/

/-- What a cell holds, in order. -/
def Cell.items : Cell → List Item
  | .array items => items
  | .object members => members.map (·.2)

/-- The items that can be reached from a place of a document tree. -/
inductive Heap.Reaches (heap : Heap) (root : Item) : Item → Prop
  | root : heap.Reaches root root
  | item {address : Nat} {cell : Cell} {item : Item} : heap.Reaches root (.cell address) →
      heap.cells[address]? = some cell → item ∈ cell.items → heap.Reaches root item

/-- The nodes that can be reached from a node of a graph. -/
inductive Graph.Reaches (g : Graph) (root : Nat) : Nat → Prop
  | root : g.Reaches root root
  | child {id child : Nat} : g.Reaches root id → child ∈ (g.node id).children → g.Reaches root child

/-! ### What a value says of a tree -/

/-- The node that a scalar becomes; cells are none, and bytes and native date-times become nothing. -/
def Item.scalar? : Item → Option Node
  | .null => some .null
  | .boolean b => some (.boolean b)
  | .integer i => some (.integer i)
  | .number x => some (.number x)
  | .string s => some (.string s)
  | _ => none

theorem Item.leaf_of_scalar? {item : Item} {node : Node} (h : item.scalar? = some node) :
    node.isComposite = false ∧ node.children = [] := by
  cases item <;> cases h <;> exact ⟨rfl, rfl⟩

/-- The kind of an item that no value has. -/
def Item.unsupported? : Item → Option Unsupported
  | .bytes _ => some .bytes
  | .dateTime _ => some .dateTime
  | _ => none

/-- The cell is an object that holds a string under the reserved name. -/
def Cell.isReference : Cell → Bool
  | .array _ => false
  | .object members =>
    match members.lookup referenceKey with
    | some (.string _) => true
    | _ => false

theorem Cell.isReference_object {members : List (String × Item)} :
    (Cell.object members).isReference = true ↔ ∃ s, members.lookup referenceKey = some (.string s) := by
  simp only [Cell.isReference]
  split <;> simp_all

theorem Node.ofMembers_of_string {nodes : Array Node} {members : List (String × Nat)} {id : Nat} {s : String}
    (hl : members.lookup referenceKey = some id) (hn : nodes[id]? = some (.string s)) :
    Node.ofMembers nodes members = .reference members := by
  simp [Node.ofMembers, hl, hn]

theorem Node.ofMembers_of_ne {nodes : Array Node} {members : List (String × Nat)}
    (h : ∀ id s, members.lookup referenceKey = some id → nodes[id]? ≠ some (.string s)) :
    Node.ofMembers nodes members = .object members := by
  unfold Node.ofMembers
  split
  · next s hs =>
    obtain ⟨id, hl, hn⟩ := Option.bind_eq_some_iff.mp hs
    exact absurd hn (h id s hl)
  · rfl

/-- The node of a cell, where `at'` says which nodes stand for its items. -/
def Cell.Becomes (at' : Item → Nat → Prop) (cell : Cell) (node : Node) : Prop :=
  match cell with
  | .array items => ∃ ids, node = .array ids ∧ List.Forall₂ at' items ids
  | .object members => ∃ ids, node = (if cell.isReference then .reference ids else .object ids) ∧
      List.Forall₂ (fun m n => m.1 = n.1 ∧ at' m.2 n.2) members ids

/-- A node stands for an item, where `place` gives the nodes of cells: a scalar is copied, a cell is at its node,
and an address without cell counts as null. -/
def Item.At (g : Graph) (place : Nat → Option Nat) : Item → Nat → Prop
  | .cell address, id => place address = some id ∨ (place address = none ∧ g.node id = .null)
  | item, id => item.scalar? = some (g.node id)

/-- The value of a tree: the cells that can be reached have one node each, which lists what the cell holds, and
all composite nodes are of this kind. -/
structure Value.Represents (w : Value) (heap : Heap) (root : Item) (place : Nat → Option Nat) : Prop where
  root_at : root.At w.graph place w.id
  place_iff : ∀ address, (∃ id, place address = some id) ↔ heap.Reaches root (.cell address) ∧ address < heap.size
  place_inj : ∀ {a b id : Nat}, place a = some id → place b = some id → a = b
  becomes : ∀ {address id : Nat}, place address = some id → ∃ cell, heap.cells[address]? = some cell ∧
    cell.Becomes (Item.At w.graph place) (w.graph.node id)
  place_of_composite : ∀ {id : Nat}, (w.graph.node id).isComposite = true → ∃ address, place address = some id

theorem Cell.Becomes.mono {at' at'' : Item → Nat → Prop} (h : ∀ item id, at' item id → at'' item id) {cell : Cell}
    {node : Node} (hc : cell.Becomes at' node) : cell.Becomes at'' node := by
  cases cell with
  | array items =>
    obtain ⟨ids, hn, hf⟩ := hc
    exact ⟨ids, hn, hf.imp fun item id => h item id⟩
  | object members =>
    obtain ⟨ids, hn, hf⟩ := hc
    exact ⟨ids, hn, hf.imp fun m n hm => ⟨hm.1, h _ _ hm.2⟩⟩

theorem Cell.isComposite_of_becomes {at' : Item → Nat → Prop} {cell : Cell} {node : Node}
    (h : cell.Becomes at' node) : node.isComposite = true := by
  cases cell with
  | array items =>
    obtain ⟨ids, rfl, -⟩ := h
    rfl
  | object members =>
    obtain ⟨ids, rfl, -⟩ := h
    split <;> rfl

/-- The children of the node of a cell stand for what the cell holds. -/
theorem Cell.Becomes.children {at' : Item → Nat → Prop} {cell : Cell} {node : Node} (h : cell.Becomes at' node) :
    List.Forall₂ at' cell.items node.children := by
  cases cell with
  | array items =>
    obtain ⟨ids, rfl, hf⟩ := h
    exact hf
  | object members =>
    obtain ⟨ids, hn, hf⟩ := h
    have hc : node.children = ids.map (·.2) := by rw [hn]; split <;> rfl
    rw [hc, Cell.items, List.forall₂_map_left_iff, List.forall₂_map_right_iff]
    exact hf.imp fun _ _ hm => hm.2

theorem exists_right_of_forall₂ {α β : Type} {R : α → β → Prop} {l : List α} {m : List β}
    (h : List.Forall₂ R l m) {a : α} (ha : a ∈ l) : ∃ b ∈ m, R a b := by
  induction h with
  | nil => cases ha
  | cons hab _ ih =>
    rcases List.mem_cons.mp ha with rfl | ha
    · exact ⟨_, List.mem_cons_self, hab⟩
    · obtain ⟨b, hb, hr⟩ := ih ha
      exact ⟨b, List.mem_cons_of_mem _ hb, hr⟩

theorem exists_left_of_forall₂ {α β : Type} {R : α → β → Prop} {l : List α} {m : List β}
    (h : List.Forall₂ R l m) {b : β} (hb : b ∈ m) : ∃ a ∈ l, R a b :=
  exists_right_of_forall₂ h.flip hb

theorem forall₂_trans {α β γ : Type} {R : α → β → Prop} {S : β → γ → Prop} {T : α → γ → Prop} {l : List α}
    {m : List β} {k : List γ} (h : List.Forall₂ R l m) (h' : List.Forall₂ S m k)
    (hT : ∀ a ∈ l, ∀ b ∈ m, ∀ c, R a b → S b c → T a c) : List.Forall₂ T l k := by
  induction h generalizing k with
  | nil =>
    cases h'
    exact .nil
  | @cons a b l m hab _ ih =>
    cases h' with
    | cons hbc h' =>
      refine .cons (hT a List.mem_cons_self b List.mem_cons_self _ hab hbc) (ih h' fun a ha b hb => ?_)
      exact hT a (List.mem_cons_of_mem _ ha) b (List.mem_cons_of_mem _ hb)

/-- Values related to those of members, put back under the keys. -/
theorem forall₂_zip_keys {α β : Type} {R : α → β → Prop} {l : List (String × α)} {m : List β}
    (h : List.Forall₂ R (l.map (·.2)) m) :
    List.Forall₂ (fun a b => a.1 = b.1 ∧ R a.2 b.2) l ((l.map (·.1)).zip m) := by
  induction l generalizing m with
  | nil => exact .nil
  | cons a l ih =>
    cases h with
    | cons hab h => exact .cons ⟨rfl, hab⟩ (ih h)

/-- Members with the same keys and related values give related values for a key. -/
theorem lookup_rel {α β : Type} {R : α → β → Prop} {l : List (String × α)} {m : List (String × β)}
    (h : List.Forall₂ (fun a b => a.1 = b.1 ∧ R a.2 b.2) l m) (key : String) :
    Option.Rel R (l.lookup key) (m.lookup key) := by
  induction h with
  | nil => exact .none
  | @cons a b l m hab _ ih =>
    obtain ⟨k, x⟩ := a
    obtain ⟨k', y⟩ := b
    obtain ⟨rfl, hxy⟩ := hab
    by_cases hk : key = k
    · subst hk
      simpa using Option.Rel.some hxy
    · simpa [List.lookup_cons, beq_eq_false_iff_ne.mpr hk] using ih

/-- The node of an object whose nodes for strings are those of the tree. -/
theorem Node.ofMembers_eq {nodes : Array Node} {at' : Item → Nat → Prop} {members : List (String × Item)}
    {ids : List (String × Nat)} (hf : List.Forall₂ (fun m n => m.1 = n.1 ∧ at' m.2 n.2) members ids)
    (hstring : ∀ {item id s}, at' item id → (nodes[id]? = some (.string s) ↔ item = .string s)) :
    Node.ofMembers nodes ids = if (Cell.object members).isReference then .reference ids else .object ids := by
  have hl := lookup_rel hf referenceKey
  by_cases hs : ∃ s, members.lookup referenceKey = some (.string s)
  · rw [if_pos (Cell.isReference_object.2 hs)]
    obtain ⟨s, hs⟩ := hs
    rw [hs] at hl
    cases hi : ids.lookup referenceKey with
    | none => rw [hi] at hl; cases hl
    | some id =>
      rw [hi] at hl
      have hat : at' (.string s) id := by cases hl; assumption
      exact Node.ofMembers_of_string hi ((hstring hat).mpr rfl)
  · rw [if_neg (mt Cell.isReference_object.1 hs)]
    refine Node.ofMembers_of_ne fun id s hi hn => hs ⟨s, ?_⟩
    rw [hi] at hl
    cases hm : members.lookup referenceKey with
    | none => rw [hm] at hl; cases hl
    | some item =>
      rw [hm] at hl
      have hat : at' item id := by cases hl; assumption
      rw [(hstring hat).mp hn]

/-! ### Registers -/

theorem getElem?_register {known : Array (Option Nat)} {a : Nat} (ha : known[a]? = some none) (id b : Nat) :
    (known.setIfInBounds a (some id))[b]? = if b = a then some (some id) else known[b]? := by
  have hlt : a < known.size := (Array.getElem?_eq_some_iff.mp ha).1
  rw [Array.getElem?_setIfInBounds]
  by_cases hb : b = a
  · simp [hb, hlt]
  · simp [hb, Ne.symm hb]

/-- Registering leaves one entry less to be registered. -/
theorem count_register {known : Array (Option Nat)} {a : Nat} (ha : known[a]? = some none) (id : Nat) :
    (known.setIfInBounds a (some id)).count none + 1 = known.count none := by
  have hlt : a < known.size := (Array.getElem?_eq_some_iff.mp ha).1
  have hcount : 0 < known.count none := by
    rw [Array.count_pos_iff]
    exact Array.mem_of_getElem? ha
  have hget : known[a] = none := by simpa [Array.getElem?_eq_getElem hlt] using ha
  have hset : known.setIfInBounds a (some id) = known.set a (some id) hlt := by simp [Array.setIfInBounds, hlt]
  have hnew : (some id == (none : Option Nat)) = false := rfl
  rw [hset, Array.count_set]
  simp only [hget, beq_self_eq_true, if_true, hnew]
  simp
  omega

namespace Transformation

variable {heap : Heap} {root item : Item} {busy : Option Nat} {t t' t'' : Transformation} {a id : Nat}

/-! ### The invariant -/

/-- A node stands for an item, now and later: no node of a scalar is registered for a cell. -/
def Holds (t : Transformation) : Item → Nat → Prop
  | .cell address, id => t.known[address]? = some (some id) ∨
      (t.known[address]? = none ∧ t.nodes[id]? = some .null ∧ ∀ a : Nat, t.known[a]? ≠ some (some id))
  | item, id => ∃ node, item.scalar? = some node ∧ t.nodes[id]? = some node ∧
      ∀ a : Nat, t.known[a]? ≠ some (some id)

/-- What holds of a transformation while the cell `busy` is being looked at. -/
structure Inv (heap : Heap) (root : Item) (busy : Option Nat) (t : Transformation) : Prop where
  size_known : t.known.size = heap.size
  node_of_known : ∀ {a id : Nat}, t.known[a]? = some (some id) →
    ∃ node, t.nodes[id]? = some node ∧ ∀ s, node ≠ .string s
  known_inj : ∀ {a b id : Nat}, t.known[a]? = some (some id) → t.known[b]? = some (some id) → a = b
  known_of_pending : ∀ {id a}, (id, a) ∈ t.pending → t.known[a]? = some (some id)
  filled : ∀ {a id : Nat}, t.known[a]? = some (some id) → (id, a) ∈ t.pending ∨ busy = some a ∨
    ∃ cell node, heap.cells[a]? = some cell ∧ t.nodes[id]? = some node ∧ cell.Becomes t.Holds node
  known_of_composite : ∀ {id : Nat} {node : Node}, t.nodes[id]? = some node → node.isComposite = true →
    ∃ a : Nat, t.known[a]? = some (some id)
  reaches : ∀ {a id : Nat}, t.known[a]? = some (some id) → heap.Reaches root (.cell a)

/-- The cells still to be registered or filled. -/
def work (t : Transformation) : Nat := t.known.count none + t.pending.length

/-- What looking at an item may change: nodes are added, cells registered under new numbers. -/
structure Grows (t t' : Transformation) : Prop where
  nodes : ∀ {id : Nat} {node : Node}, t.nodes[id]? = some node → t'.nodes[id]? = some node
  known : ∀ {a id : Nat}, t.known[a]? = some (some id) → t'.known[a]? = some (some id)
  fresh : ∀ {a id : Nat}, t'.known[a]? = some (some id) → t.known[a]? = some (some id) ∨ t.nodes.size ≤ id
  size : t'.known.size = t.known.size
  work : t'.work = t.work

theorem Grows.refl (t : Transformation) : t.Grows t := ⟨id, id, .inl, rfl, rfl⟩

theorem Grows.size_nodes (h : t.Grows t') : t.nodes.size ≤ t'.nodes.size := by
  by_contra hlt
  obtain ⟨node, hnode⟩ : ∃ node, t.nodes[t'.nodes.size]? = some node :=
    ⟨_, Array.getElem?_eq_getElem (by omega)⟩
  have := h.nodes hnode
  simp at this

theorem Grows.trans (h : t.Grows t') (h' : t'.Grows t'') : t.Grows t'' := by
  refine ⟨fun hn => h'.nodes (h.nodes hn), fun hk => h'.known (h.known hk), fun hk => ?_, h'.size.trans h.size,
    h'.work.trans h.work⟩
  rcases h'.fresh hk with hk | hle
  · exact h.fresh hk
  · exact .inr (Nat.le_trans h.size_nodes hle)

theorem known_eq_none_iff : t.known[a]? = none ↔ t.known.size ≤ a := Array.getElem?_eq_none_iff

theorem Grows.unregistered (h : t.Grows t') {node : Node} (hn : t.nodes[id]? = some node)
    (hu : ∀ a : Nat, t.known[a]? ≠ some (some id)) : ∀ a : Nat, t'.known[a]? ≠ some (some id) := by
  intro a ha
  rcases h.fresh ha with hk | hle
  · exact hu a hk
  · rw [Array.getElem?_eq_none hle] at hn
    exact absurd hn (by simp)

theorem Holds.mono (h : t.Grows t') (hi : t.Holds item id) : t'.Holds item id := by
  cases item with
  | cell address =>
    rcases hi with hk | ⟨hk, hn, hu⟩
    · exact .inl (h.known hk)
    · refine .inr ⟨?_, h.nodes hn, h.unregistered hn hu⟩
      rw [known_eq_none_iff] at hk ⊢
      rw [h.size]
      exact hk
  | _ =>
    obtain ⟨node, hs, hn, hu⟩ := hi
    exact ⟨node, hs, h.nodes hn, h.unregistered hn hu⟩

/-! ### Looking at an item -/

theorem grows_add (t : Transformation) (node : Node) : t.Grows (t.add node).2 := by
  refine ⟨fun {id n} hn => ?_, id, .inl, rfl, rfl⟩
  have hlt : id < t.nodes.size := (Array.getElem?_eq_some_iff.mp hn).1
  rw [add, Array.getElem?_push_lt hlt]
  rw [Array.getElem?_eq_getElem hlt] at hn
  exact hn

theorem node_add (t : Transformation) (node : Node) : (t.add node).2.nodes[(t.add node).1]? = some node := by
  simp [add]

theorem Inv.unregistered_size (h : t.Inv heap root busy) : ∀ a : Nat, t.known[a]? ≠ some (some t.nodes.size) := by
  intro a ha
  obtain ⟨node, hn, -⟩ := h.node_of_known ha
  simp at hn

theorem Inv.grow (h : t.Inv heap root busy) (hg : t.Grows t') {a : Nat} {id : Nat}
    (hk : t.known[a]? = some (some id)) :
    ((id, a) ∈ t.pending ∨ busy = some a ∨
      ∃ cell node, heap.cells[a]? = some cell ∧ t'.nodes[id]? = some node ∧ cell.Becomes t'.Holds node) := by
  rcases h.filled hk with hp | hb | ⟨cell, node, hc, hn, hbec⟩
  · exact .inl hp
  · exact .inr (.inl hb)
  · exact .inr (.inr ⟨cell, node, hc, hg.nodes hn, hbec.mono fun _ _ => Holds.mono hg⟩)

theorem Inv.add (h : t.Inv heap root busy) {node : Node} (hn : node.isComposite = false) :
    (t.add node).2.Inv heap root busy := by
  have hg := grows_add t node
  refine ⟨h.size_known, fun hk => ?_, h.known_inj, h.known_of_pending, h.grow hg, fun {id n} hid hcomp => ?_,
    h.reaches⟩
  · obtain ⟨n, hid, hs⟩ := h.node_of_known hk
    exact ⟨n, hg.nodes hid, hs⟩
  · by_cases hlt : id < t.nodes.size
    · rw [Transformation.add, Array.getElem?_push_lt hlt] at hid
      exact h.known_of_composite (by rw [Array.getElem?_eq_getElem hlt]; exact hid) hcomp
    · simp only [Transformation.add, Array.getElem?_push] at hid
      split at hid
      · rw [Option.some.inj hid] at hn
        exact absurd hcomp (by simp [hn])
      · rw [Array.getElem?_eq_none (by omega)] at hid
        exact absurd hid (by simp)

/-- The state after a new cell is registered. -/
def enter (t : Transformation) (address : Nat) : Transformation :=
  ⟨t.nodes.push .null, t.known.setIfInBounds address (some t.nodes.size), (t.nodes.size, address) :: t.pending⟩

theorem register_eq (t : Transformation) (address : Nat) :
    t.register address =
      match t.known[address]? with
      | none => t.add .null
      | some (some id) => (id, t)
      | some none => (t.nodes.size, t.enter address) := rfl

theorem known_enter {address : Nat} (ha : t.known[address]? = some none) (b : Nat) :
    (t.enter address).known[b]? = if b = address then some (some t.nodes.size) else t.known[b]? :=
  getElem?_register ha t.nodes.size b

theorem grows_enter {address : Nat} (ha : t.known[address]? = some none) : t.Grows (t.enter address) := by
  refine ⟨fun hn => (grows_add t .null).nodes hn, fun {b id} hk => ?_, fun {b id} hk => ?_, by simp [enter], ?_⟩
  · rw [known_enter ha, if_neg (by rintro rfl; simp [ha] at hk)]
    exact hk
  · rw [known_enter ha] at hk
    split at hk
    · exact .inr (Nat.le_of_eq (Option.some.inj (Option.some.inj hk)))
    · exact .inl hk
  · have hcount := count_register ha t.nodes.size
    simp only [work, enter, List.length_cons]
    omega

theorem Inv.enter (h : t.Inv heap root busy) {address : Nat} (ha : t.known[address]? = some none)
    (hr : heap.Reaches root (.cell address)) : (t.enter address).Inv heap root busy := by
  have hg := grows_enter ha
  have hnew : (t.enter address).nodes[t.nodes.size]? = some .null := by simp [Transformation.enter]
  refine ⟨hg.size.trans h.size_known, fun {b id} hk => ?_, fun {b c id} hb hc => ?_, fun {id b} hp => ?_,
    fun {b id} hk => ?_, fun {id n} hid hcomp => ?_, fun {b id} hk => ?_⟩
  · rw [known_enter ha] at hk
    split at hk
    · exact ⟨.null, by rw [← Option.some.inj (Option.some.inj hk)]; exact hnew, by simp⟩
    · obtain ⟨n, hid, hs⟩ := h.node_of_known hk
      exact ⟨n, hg.nodes hid, hs⟩
  · rw [known_enter ha] at hb hc
    split at hb <;> split at hc
    · simp_all
    · rw [← hb] at hc
      exact absurd hc (h.unregistered_size c)
    · rw [← hc] at hb
      exact absurd hb (h.unregistered_size b)
    · exact h.known_inj hb hc
  · rcases List.mem_cons.mp hp with heq | hp
    · cases heq
      rw [known_enter ha, if_pos rfl]
    · exact hg.known (h.known_of_pending hp)
  · rw [known_enter ha] at hk
    split at hk
    · next hb => exact .inl (by rw [hb, ← Option.some.inj (Option.some.inj hk)]; exact List.mem_cons_self)
    · exact (h.grow hg hk).imp_left fun hp => List.mem_cons_of_mem _ hp
  · rcases Nat.lt_trichotomy id t.nodes.size with hlt | heq | hgt
    · rw [Transformation.enter, Array.getElem?_push_lt hlt] at hid
      obtain ⟨b, hb⟩ := h.known_of_composite (by rw [Array.getElem?_eq_getElem hlt]; exact hid) hcomp
      exact ⟨b, hg.known hb⟩
    · exact ⟨address, by rw [known_enter ha, if_pos rfl, heq]⟩
    · rw [Array.getElem?_eq_none (by simp [Transformation.enter]; omega)] at hid
      exact absurd hid (by simp)
  · rw [known_enter ha] at hk
    split at hk
    · next hb => exact hb ▸ hr
    · exact h.reaches hk

/-- Looking at an item keeps the invariant and gives a node that stands for it. -/
theorem intern_spec (h : t.Inv heap root busy) (hr : heap.Reaches root item)
    (hok : t.intern item = .ok (id, t')) : t'.Inv heap root busy ∧ t.Grows t' ∧ t'.Holds item id := by
  have hscalar : ∀ node : Node, node.isComposite = false → item.scalar? = some node →
      (∀ address, item ≠ .cell address) → t.add node = (id, t') →
      t'.Inv heap root busy ∧ t.Grows t' ∧ t'.Holds item id := by
    intro node hn hs hcell hadd
    have hid : id = t.nodes.size := (congrArg Prod.fst hadd).symm
    have ht : t' = (t.add node).2 := (congrArg Prod.snd hadd).symm
    subst hid ht
    refine ⟨h.add hn, grows_add t node, ?_⟩
    cases item with
    | cell address => exact absurd rfl (hcell address)
    | _ => exact ⟨node, hs, node_add t node, h.unregistered_size⟩
  cases item with
  | cell address =>
    simp only [intern, register_eq, Except.ok.injEq] at hok
    split at hok
    · next hk =>
      have hid : id = t.nodes.size := (congrArg Prod.fst hok).symm
      have ht : t' = (t.add .null).2 := (congrArg Prod.snd hok).symm
      subst hid ht
      exact ⟨h.add rfl, grows_add t .null, .inr ⟨hk, node_add t .null, h.unregistered_size⟩⟩
    · next hk =>
      cases hok
      exact ⟨h, .refl t, .inl hk⟩
    · next hk =>
      cases hok
      exact ⟨h.enter hk hr, grows_enter hk, .inl (by rw [known_enter hk, if_pos rfl])⟩
  | bytes | dateTime => exact absurd hok (by simp [intern])
  | _ => exact hscalar _ rfl rfl (by simp) (Except.ok.inj hok)

theorem intern_error {kind : Unsupported} (hok : t.intern item = .error kind) : item.unsupported? = some kind := by
  cases item with
  | bytes | dateTime =>
    simp only [intern, Except.error.injEq] at hok
    simp [Item.unsupported?, hok]
  | _ => exact absurd hok (by simp [intern])

theorem internItems_spec {items : List Item} {ids : List Nat} (h : t.Inv heap root busy)
    (hr : ∀ item ∈ items, heap.Reaches root item) (hok : t.internItems items = .ok (ids, t')) :
    t'.Inv heap root busy ∧ t.Grows t' ∧ List.Forall₂ t'.Holds items ids := by
  induction items generalizing t t' ids with
  | nil =>
    cases hok
    exact ⟨h, .refl t, .nil⟩
  | cons item items ih =>
    simp only [internItems] at hok
    cases hi : t.intern item with
    | error kind => simp [hi, bind, Except.bind] at hok
    | ok first =>
      obtain ⟨id, t₁⟩ := first
      obtain ⟨h₁, hg₁, hid⟩ := intern_spec h (hr item List.mem_cons_self) hi
      simp only [hi, bind, Except.bind] at hok
      cases hrest : t₁.internItems items with
      | error kind => simp [hrest] at hok
      | ok others =>
        obtain ⟨ids', t₂⟩ := others
        obtain ⟨h₂, hg₂, hids⟩ := ih h₁ (fun item hm => hr item (List.mem_cons_of_mem _ hm)) hrest
        simp only [hrest, pure, Except.pure, Except.ok.injEq, Prod.mk.injEq] at hok
        obtain ⟨rfl, rfl⟩ := hok
        exact ⟨h₂, hg₁.trans hg₂, .cons (hid.mono hg₂) hids⟩

theorem internItems_error {items : List Item} {kind : Unsupported} (hok : t.internItems items = .error kind) :
    ∃ item ∈ items, item.unsupported? = some kind := by
  induction items generalizing t with
  | nil => exact absurd hok (by simp [internItems])
  | cons item items ih =>
    simp only [internItems] at hok
    cases hi : t.intern item with
    | error kind' =>
      simp only [hi, bind, Except.bind, Except.error.injEq] at hok
      exact ⟨item, List.mem_cons_self, hok ▸ intern_error hi⟩
    | ok first =>
      simp only [hi, bind, Except.bind] at hok
      cases hrest : first.2.internItems items with
      | error kind' =>
        simp only [hrest, Except.error.injEq] at hok
        obtain ⟨item', hm, hu⟩ := ih (hok ▸ hrest)
        exact ⟨item', List.mem_cons_of_mem _ hm, hu⟩
      | ok others => simp [hrest, pure, Except.pure] at hok

/-- Members are looked at as the items they hold. -/
theorem internMembers_eq (t : Transformation) (members : List (String × Item)) :
    t.internMembers members =
      (t.internItems (members.map (·.2))).map fun r => ((members.map (·.1)).zip r.1, r.2) := by
  induction members generalizing t with
  | nil => rfl
  | cons m members ih =>
    simp only [internMembers, internItems, List.map_cons]
    cases t.intern m.2 with
    | error kind => rfl
    | ok first =>
      simp only [bind, Except.bind, ih]
      cases first.2.internItems (members.map (·.2)) <;> rfl

/-! ### Filling a node -/

/-- Only a string of the tree is a string among the nodes. -/
theorem Inv.eq_string (h : t.Inv heap root busy) (hi : t.Holds item id) {s : String}
    (hn : t.nodes[id]? = some (.string s)) : item = .string s := by
  cases item with
  | cell address =>
    rcases hi with hk | ⟨-, hnull, -⟩
    · obtain ⟨node, hnode, hne⟩ := h.node_of_known hk
      exact absurd (Option.some.inj (hnode.symm.trans hn)) (hne s)
    · exact absurd (hnull.symm.trans hn) (by simp)
  | _ =>
    obtain ⟨node, hs, hnode, -⟩ := hi
    cases hnode.symm.trans hn
    simp_all [Item.scalar?]

/-- References among the nodes are told apart by the tree. -/
theorem Inv.ofMembers_eq (h : t.Inv heap root busy) {members : List (String × Item)} {ids : List (String × Nat)}
    (hf : List.Forall₂ (fun m n => m.1 = n.1 ∧ t.Holds m.2 n.2) members ids) :
    Node.ofMembers t.nodes ids =
      if (Cell.object members).isReference then .reference ids else .object ids := by
  refine Node.ofMembers_eq hf fun hi => ⟨h.eq_string hi, ?_⟩
  rintro rfl
  obtain ⟨node, hnode, hn, -⟩ := hi
  cases hnode
  exact hn

/-- The state after the node of a cell is filled. -/
def close (t : Transformation) (id : Nat) (node : Node) : Transformation :=
  { t with nodes := t.nodes.setIfInBounds id node }

theorem Holds.close (hk : t.known[a]? = some (some id)) {node : Node} {item : Item} {n : Nat}
    (hi : t.Holds item n) : (t.close id node).Holds item n := by
  have hne : (∀ b : Nat, t.known[b]? ≠ some (some n)) → (t.close id node).nodes[n]? = t.nodes[n]? := fun hu => by
    refine Array.getElem?_setIfInBounds_ne ?_
    rintro rfl
    exact hu a hk
  cases item with
  | cell address =>
    rcases hi with hi | ⟨hi, hn, hu⟩
    · exact .inl hi
    · exact .inr ⟨hi, (hne hu).trans hn, hu⟩
  | _ =>
    obtain ⟨node, hs, hn, hu⟩ := hi
    exact ⟨node, hs, (hne hu).trans hn, hu⟩

theorem Inv.close (h : t.Inv heap root (some a)) (hk : t.known[a]? = some (some id)) {cell : Cell} {node : Node}
    (hc : heap.cells[a]? = some cell) (hb : cell.Becomes t.Holds node) : (t.close id node).Inv heap root none := by
  have hset : (t.close id node).nodes[id]? = some node := by
    obtain ⟨old, hold, -⟩ := h.node_of_known hk
    exact Array.getElem?_setIfInBounds_self_of_lt (Array.getElem?_eq_some_iff.mp hold).1
  have hne : ∀ {n : Nat}, n ≠ id → (t.close id node).nodes[n]? = t.nodes[n]? :=
    fun hn => Array.getElem?_setIfInBounds_ne (Ne.symm hn)
  have hmono : ∀ item n, t.Holds item n → (t.close id node).Holds item n := fun _ _ => Holds.close hk
  refine ⟨h.size_known, fun {b n} hb' => ?_, h.known_inj, h.known_of_pending, fun {b n} hb' => ?_,
    fun {n m} hn hcomp => ?_, h.reaches⟩
  · by_cases hn : n = id
    · refine ⟨node, hn ▸ hset, fun s hs => ?_⟩
      have := Cell.isComposite_of_becomes hb
      rw [hs] at this
      exact absurd this (by simp [Node.isComposite])
    · obtain ⟨old, hold, hs⟩ := h.node_of_known hb'
      exact ⟨old, (hne hn).trans hold, hs⟩
  · by_cases hn : n = id
    · subst hn
      cases h.known_inj hb' hk
      exact .inr (.inr ⟨cell, node, hc, hset, hb.mono hmono⟩)
    · rcases h.filled hb' with hp | hbusy | ⟨cell', node', hc', hn', hbec⟩
      · exact .inl hp
      · cases hbusy
        exact absurd (Option.some.inj (Option.some.inj (hb'.symm.trans hk))) hn
      · exact .inr (.inr ⟨cell', node', hc', (hne hn).trans hn', hbec.mono hmono⟩)
  · by_cases hid : n = id
    · exact ⟨a, hid ▸ hk⟩
    · exact h.known_of_composite ((hne hid).symm.trans hn) hcomp

theorem Inv.items_reach (h : t.Inv heap root busy) (hk : t.known[a]? = some (some id)) {cell : Cell}
    (hc : heap.cells[a]? = some cell) : ∀ item ∈ cell.items, heap.Reaches root item :=
  fun _ hm => .item (h.reaches hk) hc hm

theorem fill_spec (h : t.Inv heap root (some a)) (hk : t.known[a]? = some (some id)) {cell : Cell}
    (hc : heap.cells[a]? = some cell) (hok : t.fill id cell = .ok t') :
    t'.Inv heap root none ∧ t'.work = t.work ∧ ∀ item n, t.Holds item n → t'.Holds item n := by
  have hr := h.items_reach hk hc
  cases cell with
  | array items =>
    simp only [fill] at hok
    cases hi : t.internItems items with
    | error kind => simp [hi, bind, Except.bind] at hok
    | ok r =>
      obtain ⟨h', hg, hids⟩ := internItems_spec h hr hi
      simp only [hi, bind, Except.bind, pure, Except.pure, Except.ok.injEq] at hok
      subst hok
      exact ⟨h'.close (hg.known hk) hc ⟨r.1, rfl, hids⟩, hg.work, fun _ _ hn => (hn.mono hg).close (hg.known hk)⟩
  | object members =>
    simp only [fill, internMembers_eq] at hok
    cases hi : t.internItems (members.map (·.2)) with
    | error kind => simp [hi, bind, Except.bind, Except.map] at hok
    | ok r =>
      obtain ⟨h', hg, hids⟩ := internItems_spec h hr hi
      have hmembers := forall₂_zip_keys hids
      simp only [hi, bind, Except.bind, Except.map, pure, Except.pure, Except.ok.injEq] at hok
      subst hok
      exact ⟨h'.close (hg.known hk) hc ⟨_, h'.ofMembers_eq hmembers, hmembers⟩, hg.work,
        fun _ _ hn => (hn.mono hg).close (hg.known hk)⟩

theorem fill_error {cell : Cell} {kind : Unsupported} (hok : t.fill id cell = .error kind) :
    ∃ item ∈ cell.items, item.unsupported? = some kind := by
  cases cell with
  | array items =>
    simp only [fill] at hok
    cases hi : t.internItems items with
    | error kind' =>
      simp only [hi, bind, Except.bind, Except.error.injEq] at hok
      exact internItems_error (hok ▸ hi)
    | ok r => simp [hi, bind, Except.bind, pure, Except.pure] at hok
  | object members =>
    simp only [fill, internMembers_eq] at hok
    cases hi : t.internItems (members.map (·.2)) with
    | error kind' =>
      simp only [hi, bind, Except.bind, Except.map, Except.error.injEq] at hok
      exact internItems_error (hok ▸ hi)
    | ok r => simp [hi, bind, Except.bind, Except.map, pure, Except.pure] at hok

/-! ### Emptying the list -/

/-- The first pending cell becomes the one that is looked at. -/
theorem Inv.pop (h : t.Inv heap root none) {rest : List (Nat × Nat)} (hp : t.pending = (id, a) :: rest) :
    ({ t with pending := rest } : Transformation).Inv heap root (some a) := by
  refine ⟨h.size_known, h.node_of_known, h.known_inj, fun hm => h.known_of_pending ?_, fun {b n} hk => ?_,
    h.known_of_composite, h.reaches⟩
  · rw [hp]
    exact List.mem_cons_of_mem _ hm
  · rcases h.filled hk with hm | hb | hf
    · rw [hp] at hm
      rcases List.mem_cons.mp hm with heq | hm
      · cases heq
        exact .inr (.inl rfl)
      · exact .inl hm
    · exact absurd hb (by simp)
    · exact .inr (.inr hf)

theorem Inv.cell_of_known (h : t.Inv heap root busy) (hk : t.known[a]? = some (some id)) :
    ∃ cell, heap.cells[a]? = some cell := by
  have hlt : a < t.known.size := (Array.getElem?_eq_some_iff.mp hk).1
  rw [h.size_known] at hlt
  exact ⟨heap.cells[a], Array.getElem?_eq_getElem hlt⟩

/-- With fuel for all that is left to do, the list is emptied. -/
theorem drain_spec {fuel : Nat} (h : t.Inv heap root none) (hw : t.work ≤ fuel) (hok : drain heap fuel t = .ok t') :
    t'.Inv heap root none ∧ t'.pending = [] ∧ ∀ item n, t.Holds item n → t'.Holds item n := by
  induction fuel generalizing t with
  | zero =>
    simp only [drain, Except.ok.injEq] at hok
    subst hok
    exact ⟨h, List.length_eq_zero_iff.mp (by unfold work at hw; omega), fun _ _ => id⟩
  | succ fuel ih =>
    simp only [drain] at hok
    split at hok
    · next hp =>
      cases hok
      exact ⟨h, hp, fun _ _ => id⟩
    · next n a rest hp =>
      have hk : t.known[a]? = some (some n) := h.known_of_pending (by rw [hp]; exact List.mem_cons_self)
      obtain ⟨cell, hc⟩ := h.cell_of_known hk
      rw [hc, Option.getD_some] at hok
      cases hf : ({ t with pending := rest } : Transformation).fill n cell with
      | error kind => simp [hf, bind, Except.bind] at hok
      | ok t₁ =>
        obtain ⟨h₁, hw₁, hk₁⟩ := fill_spec (h.pop hp) hk hc hf
        simp only [hf, bind, Except.bind] at hok
        have hpop : ({ t with pending := rest } : Transformation).work + 1 = t.work := by
          simp only [work, hp, List.length_cons]
          omega
        obtain ⟨h₂, hp₂, hk₂⟩ := ih h₁ (by omega) hok
        refine ⟨h₂, hp₂, fun item m hm => hk₂ item m (hk₁ item m ?_)⟩
        cases item <;> exact hm

theorem drain_error {fuel : Nat} {kind : Unsupported} (h : t.Inv heap root none)
    (hok : drain heap fuel t = .error kind) : ∃ item, heap.Reaches root item ∧ item.unsupported? = some kind := by
  induction fuel generalizing t with
  | zero => simp [drain] at hok
  | succ fuel ih =>
    simp only [drain] at hok
    split at hok
    · cases hok
    · next n a rest hp =>
      have hk : t.known[a]? = some (some n) := h.known_of_pending (by rw [hp]; exact List.mem_cons_self)
      obtain ⟨cell, hc⟩ := h.cell_of_known hk
      rw [hc, Option.getD_some] at hok
      cases hf : ({ t with pending := rest } : Transformation).fill n cell with
      | error kind' =>
        simp only [hf, bind, Except.bind, Except.error.injEq] at hok
        obtain ⟨item, hm, hu⟩ := fill_error (hok ▸ hf)
        exact ⟨item, h.items_reach hk hc item hm, hu⟩
      | ok t₁ =>
        simp only [hf, bind, Except.bind] at hok
        exact ih (fill_spec (h.pop hp) hk hc hf).1 hok

/-! ### The whole value -/

theorem inv_start (heap : Heap) (root : Item) : (start heap).Inv heap root none := by
  have hnone : ∀ {a id : Nat}, (start heap).known[a]? ≠ some (some id) := fun {a id} ha => by
    simp [start, Array.getElem?_replicate] at ha
  exact ⟨by simp [start], fun hk => absurd hk hnone, fun hk => absurd hk hnone, fun hp => absurd hp (by simp [start]),
    fun hk => absurd hk hnone, fun hn => absurd hn (by simp [start]), fun hk => absurd hk hnone⟩

theorem work_start (heap : Heap) : (start heap).work = heap.size := by
  simp [work, start]

/-- Once the list is empty, everything that can be reached has a node. -/
theorem Inv.holds_of_reaches (h : t.Inv heap root none) (hp : t.pending = []) {n : Nat} (hroot : t.Holds root n)
    (hr : heap.Reaches root item) : ∃ id, t.Holds item id := by
  induction hr with
  | root => exact ⟨n, hroot⟩
  | @item address cell item _ hc hm ih =>
    obtain ⟨id, hk | ⟨hk, -⟩⟩ := ih
    · rcases h.filled hk with hpend | hb | ⟨cell', node, hc', -, hbec⟩
      · simp [hp] at hpend
      · exact absurd hb (by simp)
      · cases hc.symm.trans hc'
        obtain ⟨child, -, hchild⟩ := exists_right_of_forall₂ hbec.children hm
        exact ⟨child, hchild⟩
    · rw [known_eq_none_iff, h.size_known] at hk
      rw [Array.getElem?_eq_none hk] at hc
      exact absurd hc (by simp)

/-- The graph of an emptied transformation, with the nodes of cells as they are registered. -/
theorem Inv.represents (h : t.Inv heap root none) (hp : t.pending = []) {n : Nat} (hroot : t.Holds root n)
    (tag : Nat) : (⟨⟨tag, t.nodes⟩, n⟩ : Value).Represents heap root fun a => (t.known[a]?).join := by
  have hjoin : ∀ {a id : Nat}, (t.known[a]?).join = some id ↔ t.known[a]? = some (some id) := Option.join_eq_some_iff
  have hat : ∀ item id, t.Holds item id → item.At ⟨tag, t.nodes⟩ (fun a => (t.known[a]?).join) id := by
    intro item id hi
    cases item with
    | cell address =>
      rcases hi with hk | ⟨hk, hn, -⟩
      · exact .inl (hjoin.mpr hk)
      · exact .inr ⟨by simp [hk], by simp [Graph.node, hn]⟩
    | _ =>
      obtain ⟨node, hs, hn, -⟩ := hi
      simpa [Item.At, Graph.node, hn] using hs
  refine ⟨hat root n hroot, fun a => ⟨?_, ?_⟩, fun ha hb => h.known_inj (hjoin.mp ha) (hjoin.mp hb),
    fun {a id} ha => ?_, fun {id} hid => ?_⟩
  · rintro ⟨id, hk⟩
    have hk := hjoin.mp hk
    exact ⟨h.reaches hk, h.size_known ▸ (Array.getElem?_eq_some_iff.mp hk).1⟩
  · rintro ⟨hr, hlt⟩
    obtain ⟨id, hk | ⟨hk, -⟩⟩ := h.holds_of_reaches hp hroot hr
    · exact ⟨id, hjoin.mpr hk⟩
    · rw [known_eq_none_iff, h.size_known] at hk
      exact absurd hlt (Nat.not_lt.mpr hk)
  · rcases h.filled (hjoin.mp ha) with hpend | hb | ⟨cell, node, hc, hn, hbec⟩
    · simp [hp] at hpend
    · exact absurd hb (by simp)
    · exact ⟨cell, hc, by simpa [Graph.node, hn] using hbec.mono hat⟩
  · cases hn : t.nodes[id]? with
    | none => simp [Graph.node, hn, Node.isComposite] at hid
    | some node =>
      obtain ⟨a, ha⟩ := h.known_of_composite hn (by simpa [Graph.node, hn] using hid)
      exact ⟨a, hjoin.mpr ha⟩

end Transformation

/-- A transformation that succeeds gives a value of the tree. -/
theorem transform_represents {tag : Nat} {heap : Heap} {item : Item} {w : Value}
    (h : Value.transform tag heap item = .ok w) : w.graph.tag = tag ∧ ∃ place, w.Represents heap item place := by
  unfold Value.transform at h
  cases hi : (Transformation.start heap).intern item with
  | error kind => simp [hi, bind, Except.bind] at h
  | ok r =>
    obtain ⟨n, t⟩ := r
    obtain ⟨h₁, hg, hroot⟩ := Transformation.intern_spec (Transformation.inv_start heap item) .root hi
    have hw : t.work ≤ heap.size := Nat.le_of_eq (hg.work.trans (Transformation.work_start heap))
    simp only [hi, bind, Except.bind] at h
    cases hd : t.drain heap heap.size with
    | error kind => simp [hd] at h
    | ok t' =>
      obtain ⟨h₂, hp, hk⟩ := Transformation.drain_spec h₁ hw hd
      simp only [hd, pure, Except.pure, Except.ok.injEq] at h
      subst h
      exact ⟨rfl, _, h₂.represents hp (hk item n hroot) tag⟩

/-- A transformation fails only at bytes or a native date-time that can be reached. -/
theorem transform_eq_error {tag : Nat} {heap : Heap} {item : Item} {kind : Unsupported}
    (h : Value.transform tag heap item = .error kind) : ∃ i, heap.Reaches item i ∧ i.unsupported? = some kind := by
  unfold Value.transform at h
  cases hi : (Transformation.start heap).intern item with
  | error kind' =>
    simp only [hi, bind, Except.bind, Except.error.injEq] at h
    exact ⟨item, .root, h ▸ Transformation.intern_error hi⟩
  | ok r =>
    simp only [hi, bind, Except.bind] at h
    cases hd : r.2.drain heap heap.size with
    | error kind' =>
      simp only [hd, Except.error.injEq] at h
      exact Transformation.drain_error (Transformation.intern_spec (Transformation.inv_start heap item) .root hi).1
        (h ▸ hd)
    | ok t' => simp [hd, pure, Except.pure] at h

/-- The outcome of a transformation does not depend on the tag that the graph gets. -/
theorem transform_tag (tag tag' : Nat) (heap : Heap) (item : Item) :
    Value.transform tag' heap item = (Value.transform tag heap item).map fun w => ⟨⟨tag', w.graph.nodes⟩, w.id⟩ := by
  unfold Value.transform
  cases (Transformation.start heap).intern item with
  | error kind => rfl
  | ok r =>
    simp only [bind, Except.bind]
    cases r.2.drain heap heap.size <;> rfl

namespace Value.Represents

variable {w : Value} {heap : Heap} {root item : Item} {place : Nat → Option Nat}

theorem place_of_reaches (h : w.Represents heap root place) {address id : Nat} (hr : heap.Reaches root (.cell address))
    (hlt : address < heap.size) (hat : (Item.cell address).At w.graph place id) : place address = some id := by
  rcases hat with hp | ⟨hp, -⟩
  · exact hp
  · obtain ⟨n, hn⟩ := (h.place_iff address).mpr ⟨hr, hlt⟩
    exact absurd (hp.symm.trans hn) (by simp)

/-- The strings among the nodes are those of the tree. -/
theorem string_iff (h : w.Represents heap root place) {id : Nat} {s : String} (hat : item.At w.graph place id) :
    w.graph.nodes[id]? = some (.string s) ↔ item = .string s := by
  constructor
  · intro hn
    have hnode : w.graph.node id = .string s := by rw [Graph.node, hn, Option.getD_some]
    cases item with
    | cell address =>
      rcases hat with hp | ⟨-, hnull⟩
      · obtain ⟨cell, -, hbec⟩ := h.becomes hp
        have hcomp := Cell.isComposite_of_becomes hbec
        rw [hnode] at hcomp
        cases hcomp
      · cases hnode.symm.trans hnull
    | string s' =>
      cases Eq.trans (b := some (w.graph.node id)) hat (congrArg some hnode)
      rfl
    | _ => cases Eq.trans (b := some (w.graph.node id)) hat (congrArg some hnode)
  · rintro rfl
    have hnode : w.graph.node id = .string s := (Option.some.inj hat).symm
    unfold Graph.node at hnode
    cases hn : w.graph.nodes[id]? with
    | none =>
      rw [hn] at hnode
      cases hnode
    | some node =>
      rw [hn, Option.getD_some] at hnode
      rw [hnode]

/-- What can be reached in the tree has a node that can be reached in the value. -/
theorem exists_node (h : w.Represents heap root place) (hr : heap.Reaches root item) :
    ∃ id, w.graph.Reaches w.id id ∧ item.At w.graph place id := by
  induction hr with
  | root => exact ⟨w.id, .root, h.root_at⟩
  | @item address cell item hr hc hm ih =>
    obtain ⟨id, hid, hat⟩ := ih
    have hplace := h.place_of_reaches hr (Array.getElem?_eq_some_iff.mp hc).1 hat
    obtain ⟨cell', hc', hbec⟩ := h.becomes hplace
    cases hc.symm.trans hc'
    obtain ⟨child, hchild, hat'⟩ := exists_right_of_forall₂ hbec.children hm
    exact ⟨child, .child hid hchild, hat'⟩

end Value.Represents

end JsonSchema
