import JsonSchema.Document.Loader
import JsonSchema.Proofs.Transform

/-!
Well-formed trees and values: the keys of an object are distinct (`Heap.WellFormed`), and a reference holds the string
that makes it one (`Graph.WellFormed`). However a tree is built and changed, it stays well-formed, so the value it is
turned into is (`Value.Represents.wellFormed`), and so is the value of JSON data (`wellFormed_ofJson`).
-/

namespace JsonSchema

/-- The keys of a node are distinct, and a reference holds a string under the reserved name. -/
structure Graph.WellFormed (g : Graph) : Prop where
  nodup_keys : ∀ id, ((g.node id).members.map (·.1)).Nodup
  reference : ∀ {id members}, g.node id = .reference members →
    ∃ child s, members.lookup referenceKey = some child ∧ g.node child = .string s

/-- The keys of every object of a tree are distinct. -/
def Heap.WellFormed (h : Heap) : Prop :=
  ∀ (address : Nat) (members : List (String × Item)), h.cells[address]? = some (.object members) →
    (members.map (·.1)).Nodup

/-- The trees that a loader gives are well-formed. -/
def Loader.WellFormed (loader : Loader) : Prop :=
  ∀ {uri earlier remote}, loader.answer uri earlier = .ok remote → remote.heap.WellFormed

/-! ### Keys -/

namespace Members

variable {α : Type} {key : String} {value : α} {l : List (String × α)}

theorem keys_insert (key : String) (value : α) (l : List (String × α)) :
    (insert key value l).map (·.1) = if key ∈ l.map (·.1) then l.map (·.1) else l.map (·.1) ++ [key] := by
  induction l with
  | nil => rfl
  | cons m l ih =>
    obtain ⟨k, v⟩ := m
    by_cases hk : k = key
    · subst hk
      simp [insert]
    · rw [insert, if_neg hk, List.map_cons, List.map_cons, ih]
      by_cases hmem : key ∈ l.map (·.1)
      · rw [if_pos hmem, if_pos (List.mem_cons_of_mem _ hmem)]
      · have hne : key ∉ k :: l.map (·.1) := fun h => (List.mem_cons.mp h).elim (fun he => hk he.symm) hmem
        rw [if_neg hmem, if_neg hne, List.cons_append]

theorem insert_of_not_mem (h : key ∉ l.map (·.1)) : insert key value l = l ++ [(key, value)] := by
  induction l with
  | nil => rfl
  | cons m l ih =>
    obtain ⟨k, v⟩ := m
    rw [List.map_cons, List.mem_cons, not_or] at h
    rw [insert, if_neg (Ne.symm h.1), ih h.2, List.cons_append]

theorem nodup_insert (h : (l.map (·.1)).Nodup) : ((insert key value l).map (·.1)).Nodup := by
  rw [keys_insert]
  split
  · exact h
  · next hnot =>
    refine List.nodup_append.mpr ⟨h, List.pairwise_singleton _ key, fun a ha b hb heq => hnot ?_⟩
    cases List.mem_singleton.mp hb
    exact heq ▸ ha

/-- The keys of the members of a list are distinct, however often a key stands in it. -/
theorem nodup_ofList (l : List (String × α)) : ((ofList l).map (·.1)).Nodup := by
  have h : ∀ acc : List (String × α), (acc.map (·.1)).Nodup →
      ((l.foldl (fun acc m => insert m.1 m.2 acc) acc).map (·.1)).Nodup := by
    induction l with
    | nil => exact fun acc hacc => hacc
    | cons m l ih => exact fun acc hacc => ih _ (nodup_insert hacc)
  exact h [] List.nodup_nil

end Members

/-! ### Trees -/

/-- The keys of an object are distinct. -/
def Cell.WellFormed : Cell → Prop
  | .array _ => True
  | .object members => (members.map (·.1)).Nodup

instance (cell : Cell) : Decidable cell.WellFormed :=
  match cell with
  | .array _ => isTrue trivial
  | .object members => inferInstanceAs (Decidable (members.map (·.1)).Nodup)

namespace Heap

variable {h : Heap}

theorem wellFormed_iff : h.WellFormed ↔ ∀ (address : Nat) (cell : Cell), h.cells[address]? = some cell →
    cell.WellFormed := by
  refine ⟨fun hw address cell hc => ?_, fun hw address members hc => hw address _ hc⟩
  cases cell with
  | array items => trivial
  | object members => exact hw address members hc

theorem wellFormed_iff_forall_mem : h.WellFormed ↔ ∀ cell ∈ h.cells.toList, cell.WellFormed := by
  refine wellFormed_iff.trans ⟨fun hw cell hmem => ?_, fun hw address cell hc => ?_⟩
  · obtain ⟨address, hc⟩ := Array.getElem?_of_mem (Array.mem_toList_iff.mp hmem)
    exact hw address cell hc
  · exact hw cell (Array.mem_toList_iff.mpr (Array.mem_of_getElem? hc))

instance (h : Heap) : Decidable h.WellFormed := decidable_of_iff' _ wellFormed_iff_forall_mem

theorem wellFormed_empty : empty.WellFormed := fun address members hc => by simp [empty] at hc

theorem cells_put (h : Heap) {a : Nat} (ha : a < h.size) (cell : Cell) (b : Nat) :
    (h.put a cell).cells[b]? = if b = a then some cell else h.cells[b]? := by
  have hlt : a < h.cells.size := ha
  rw [Heap.put, Array.getElem?_setIfInBounds]
  by_cases hb : b = a
  · simp [hb, hlt]
  · simp [hb, Ne.symm hb]

theorem cells_update (h : Heap) (a b : Nat) (change : Cell → Cell) :
    (h.update (.cell a) change).cells[b]? = if b = a then h.cells[a]?.map change else h.cells[b]? := by
  unfold Heap.update
  cases hc : h.cells[a]? with
  | none =>
    by_cases hb : b = a
    · simp [hb, hc]
    · simp [hc, hb]
  | some cell =>
    simp only [hc]
    exact h.cells_put (Array.getElem?_eq_some_iff.mp hc).1 (change cell) b

theorem size_update (h : Heap) (target : Item) (change : Cell → Cell) : (h.update target change).size = h.size := by
  unfold Heap.update
  split
  · split <;> simp [put, size]
  · rfl

/-- What holds of a new cell and of every other one holds of all. -/
theorem forall_allocate {P : Cell → Prop} {cell : Cell} (hold : ∀ (a : Nat) c, h.cells[a]? = some c → P c)
    (hcell : P cell) : ∀ (a : Nat) c, (h.allocate cell).2.cells[a]? = some c → P c := by
  intro a c hc
  rw [Heap.allocate, Array.getElem?_push] at hc
  split at hc
  · cases hc
    exact hcell
  · exact hold a c hc

/-- What holds of every cell, and of a cell still when it is changed, holds of all after a change. -/
theorem forall_update {P : Cell → Prop} (target : Item) {change : Cell → Cell}
    (hold : ∀ (a : Nat) c, h.cells[a]? = some c → P c) (hchange : ∀ cell, P cell → P (change cell)) :
    ∀ (a : Nat) c, (h.update target change).cells[a]? = some c → P c := by
  cases target with
  | cell address =>
    intro a c hc
    rw [cells_update] at hc
    split at hc
    · obtain ⟨cell, hcell, rfl⟩ := Option.map_eq_some_iff.mp hc
      exact hchange cell (hold address cell hcell)
    · exact hold a c hc
  | _ => exact hold

theorem WellFormed.allocate (hw : h.WellFormed) {cell : Cell} (hcell : cell.WellFormed) :
    (h.allocate cell).2.WellFormed := wellFormed_iff.2 (forall_allocate (wellFormed_iff.1 hw) hcell)

theorem WellFormed.newArray (hw : h.WellFormed) (items : List Item) : (h.newArray items).2.WellFormed :=
  hw.allocate trivial

theorem WellFormed.newObject (hw : h.WellFormed) (members : List (String × Item)) :
    (h.newObject members).2.WellFormed := hw.allocate (Members.nodup_ofList members)

theorem WellFormed.update (hw : h.WellFormed) (target : Item) {change : Cell → Cell}
    (hchange : ∀ cell : Cell, cell.WellFormed → (change cell).WellFormed) : (h.update target change).WellFormed :=
  wellFormed_iff.2 (forall_update target (wellFormed_iff.1 hw) hchange)

theorem WellFormed.push (hw : h.WellFormed) (target item : Item) : (h.push target item).WellFormed := by
  refine hw.update target fun cell hcell => ?_
  cases cell with
  | array items => trivial
  | object members => exact hcell

theorem WellFormed.insert (hw : h.WellFormed) (target : Item) (key : String) (item : Item) :
    (h.insert target key item).WellFormed := by
  refine hw.update target fun cell hcell => ?_
  cases cell with
  | array items => trivial
  | object members => exact Members.nodup_insert hcell

theorem WellFormed.clear (hw : h.WellFormed) (target : Item) : (h.clear target).WellFormed := by
  refine hw.update target fun cell _ => ?_
  cases cell with
  | array items => trivial
  | object members => exact List.nodup_nil

mutual

/-- JSON data is added to a well-formed tree. -/
theorem WellFormed.addJson {h : Heap} (hw : h.WellFormed) (json : Json) : (h.addJson json).2.WellFormed := by
  cases json with
  | array items => exact (hw.addItems items).newArray _
  | object members => exact (hw.addMembers members).newObject _
  | _ => exact hw

theorem WellFormed.addItems {h : Heap} (hw : h.WellFormed) (items : List Json) : (h.addItems items).2.WellFormed := by
  cases items with
  | nil => exact hw
  | cons json rest => exact (hw.addJson json).addItems rest

theorem WellFormed.addMembers {h : Heap} (hw : h.WellFormed) (members : List (String × Json)) :
    (h.addMembers members).2.WellFormed := by
  cases members with
  | nil => exact hw
  | cons m rest => exact (hw.addJson m.2).addMembers rest

end

end Heap

/-- The tree of an answer is well-formed, if there is one. -/
def Answer.WellFormed (answer : Answer) : Prop := ∀ remote, answer = .ok remote → remote.heap.WellFormed

instance : DecidablePred Answer.WellFormed
  | .ok remote => decidable_of_iff remote.heap.WellFormed
      ⟨fun hw _ he => Except.ok.inj he ▸ hw, fun hw => hw remote rfl⟩
  | .error _ => isTrue fun _ he => nomatch he

/-- Every tree that a source gives is well-formed. -/
def Source.WellFormed (source : Source) : Prop := ∀ answer ∈ source.answers, answer.WellFormed

instance : DecidablePred Source.WellFormed := fun source =>
  inferInstanceAs (Decidable (∀ answer ∈ source.answers, answer.WellFormed))

namespace Loader

variable {sources : List Source} {uri : String} {earlier : Nat}

/-- What a table gives, one of its sources for the URI does. -/
theorem exists_source {remote : Remote} (h : (ofSources sources).answer uri earlier = .ok remote) :
    ∃ source ∈ sources, source.uri = uri ∧ .ok remote ∈ source.answers := by
  rw [ofSources] at h
  dsimp only at h
  split at h
  · cases h
  · next source hf =>
    refine ⟨source, List.mem_of_find?_eq_some hf, by simpa using List.find?_some hf, ?_⟩
    rw [List.getD_eq_getElem?_getD] at h
    cases hfirst : source.first[earlier]? with
    | none =>
      rw [hfirst] at h
      exact h ▸ List.mem_cons_self
    | some answer =>
      rw [hfirst] at h
      cases h
      exact List.mem_cons_of_mem _ (List.mem_of_getElem? hfirst)

theorem wellFormed_ofSources (h : ∀ source ∈ sources, source.WellFormed) : (ofSources sources).WellFormed := by
  intro uri earlier remote ha
  obtain ⟨source, hsource, -, hanswer⟩ := exists_source ha
  exact h source hsource _ hanswer remote rfl

end Loader

/-! ### Values -/

theorem map_fst_of_forall₂ {α β : Type} {R : α → β → Prop} {l : List (String × α)} {m : List (String × β)}
    (h : List.Forall₂ (fun a b => a.1 = b.1 ∧ R a.2 b.2) l m) : m.map (·.1) = l.map (·.1) := by
  induction h with
  | nil => rfl
  | cons hab _ ih => rw [List.map_cons, List.map_cons, hab.1, ih]

/-- The value of a tree is well-formed if the objects that can be reached are. -/
theorem Value.Represents.wellFormed_of_reaches {w : Value} {heap : Heap} {root : Item} {place : Nat → Option Nat}
    (h : w.Represents heap root place)
    (hh : ∀ (address : Nat) (members : List (String × Item)), heap.Reaches root (.cell address) →
      heap.cells[address]? = some (.object members) → (members.map (·.1)).Nodup) : w.graph.WellFormed := by
  -- a node with members is the node of an object
  have hobject : ∀ {id members}, (w.graph.node id = .object members ∨ w.graph.node id = .reference members) →
      ∃ (address : Nat) (cells : List (String × Item)), (cells.map (·.1)).Nodup ∧
        ((w.graph.node id = .reference members) → (Cell.object cells).isReference = true) ∧
        List.Forall₂ (fun m n => m.1 = n.1 ∧ m.2.At w.graph place n.2) cells members := by
    intro id members hn
    have hcomp : (w.graph.node id).isComposite = true := by rcases hn with hn | hn <;> rw [hn] <;> rfl
    obtain ⟨address, hp⟩ := h.place_of_composite hcomp
    obtain ⟨cell, hc, hbec⟩ := h.becomes hp
    cases cell with
    | array items =>
      obtain ⟨ids, hids, -⟩ := hbec
      rcases hn with hn | hn <;> · rw [hids] at hn; cases hn
    | object cells =>
      obtain ⟨ids, hids, hf⟩ := hbec
      have hm : ids = members := by
        split at hids <;> rcases hn with hn | hn <;> · rw [hids] at hn; cases hn; try rfl
      subst hm
      refine ⟨address, cells, hh address cells ((h.place_iff address).mp ⟨id, hp⟩).1 hc, fun hr => ?_, hf⟩
      by_contra hnot
      rw [if_neg hnot, hr] at hids
      cases hids
  constructor
  · intro id
    cases hn : w.graph.node id with
    | object members =>
      obtain ⟨address, cells, hkeys, -, hf⟩ := hobject (.inl hn)
      rw [Node.members, map_fst_of_forall₂ hf]
      exact hkeys
    | reference members =>
      obtain ⟨address, cells, hkeys, -, hf⟩ := hobject (.inr hn)
      rw [Node.members, map_fst_of_forall₂ hf]
      exact hkeys
    | _ => simp [Node.members]
  · intro id members hn
    obtain ⟨address, cells, -, hr, hf⟩ := hobject (.inr hn)
    obtain ⟨s, hs⟩ := Cell.isReference_object.1 (hr hn)
    have hl := lookup_rel hf referenceKey
    rw [hs] at hl
    cases hm : members.lookup referenceKey with
    | none => simp [hm] at hl
    | some child =>
      rw [hm, Option.rel_some_some] at hl
      exact ⟨child, s, rfl, (Option.some.inj hl).symm⟩

/-- The value of a well-formed tree is well-formed. -/
theorem Value.Represents.wellFormed {w : Value} {heap : Heap} {root : Item} {place : Nat → Option Nat}
    (h : w.Represents heap root place) (hh : heap.WellFormed) : w.graph.WellFormed :=
  h.wellFormed_of_reaches fun address members _ => hh address members

namespace Graph

variable {tag : Nat} {nodes : Array Node}

/-- Beyond the last node there are only nulls. -/
theorem getElem?_nodes_eq_string {g : Graph} {id : Nat} {text : String} :
    g.nodes[id]? = some (.string text) ↔ g.node id = .string text := by
  unfold Graph.node
  cases g.nodes[id]? <;> simp

theorem node_push (n : Node) (id : Nat) :
    (Graph.mk tag (nodes.push n)).node id = if id = nodes.size then n else (Graph.mk tag nodes).node id := by
  unfold Graph.node
  rw [Array.getElem?_push]
  split <;> rfl

/-- A node is added to a well-formed graph. A reference has to refer to an earlier node. -/
theorem WellFormed.push (h : (Graph.mk tag nodes).WellFormed) {n : Node} (hkeys : (n.members.map (·.1)).Nodup)
    (href : ∀ members, n = .reference members → ∃ child s, members.lookup referenceKey = some child ∧
      nodes[child]? = some (.string s)) : (Graph.mk tag (nodes.push n)).WellFormed := by
  have hold : ∀ {child s}, nodes[child]? = some (.string s) →
      (Graph.mk tag (nodes.push n)).node child = .string s := by
    intro child s hc
    have hlt := (Array.getElem?_eq_some_iff.mp hc).1
    rw [node_push, if_neg (by omega), Graph.node, hc]
    rfl
  refine ⟨fun id => ?_, fun {id members} hn => ?_⟩
  · rw [node_push]
    split
    · exact hkeys
    · exact h.nodup_keys id
  · rw [node_push] at hn
    split at hn
    · obtain ⟨child, s, hl, hs⟩ := href members hn
      exact ⟨child, s, hl, hold hs⟩
    · obtain ⟨child, s, hl, hs⟩ := h.reference hn
      exact ⟨child, s, hl, hold (getElem?_nodes_eq_string.mpr hs)⟩

theorem WellFormed.pushLeaf (h : (Graph.mk tag nodes).WellFormed) {n : Node} (hn : n.isComposite = false) :
    (Graph.mk tag (nodes.push n)).WellFormed := by
  refine h.push ?_ fun members heq => ?_
  · cases n with
    | object => cases hn
    | reference => cases hn
    | _ => exact List.nodup_nil
  · rw [heq] at hn
    cases hn

theorem WellFormed.pushMembers (h : (Graph.mk tag nodes).WellFormed) (members : List (String × Nat)) :
    (Graph.mk tag (nodes.push (.ofMembers nodes (Members.ofList members)))).WellFormed := by
  have hkeys := Members.nodup_ofList members
  generalize Members.ofList members = members at hkeys
  unfold Node.ofMembers
  split
  · next s hs =>
    refine h.push hkeys fun members' heq => ?_
    cases heq
    obtain ⟨child, hl, hc⟩ := Option.bind_eq_some_iff.mp hs
    exact ⟨child, s, hl, hc⟩
  · exact h.push hkeys fun members' heq => by cases heq

mutual

/-- JSON data is added to a well-formed graph. -/
theorem WellFormed.addJson {nodes : Array Node} (h : (Graph.mk tag nodes).WellFormed) (json : Json) :
    (Graph.mk tag (Node.addJson nodes json).2).WellFormed := by
  cases json with
  | array items => exact (h.addItems items).push List.nodup_nil fun _ heq => by cases heq
  | object members => exact (h.addMembers members).pushMembers _
  | number n => exact h.pushLeaf (Node.isComposite_ofNumber n)
  | _ => exact h.pushLeaf rfl

theorem WellFormed.addItems {nodes : Array Node} (h : (Graph.mk tag nodes).WellFormed) (items : List Json) :
    (Graph.mk tag (Node.addItems nodes items).2).WellFormed := by
  cases items with
  | nil => exact h
  | cons json rest => exact (h.addJson json).addItems rest

theorem WellFormed.addMembers {nodes : Array Node} (h : (Graph.mk tag nodes).WellFormed)
    (members : List (String × Json)) : (Graph.mk tag (Node.addMembers nodes members).2).WellFormed := by
  cases members with
  | nil => exact h
  | cons m rest => exact (h.addJson m.2).addMembers rest

end

end Graph

namespace Value

variable {v : Value}

/-- The value of JSON data is well-formed. -/
theorem wellFormed_ofJson (tag : Nat) (json : Json) : (ofJson tag json).graph.WellFormed := by
  have hempty : (Graph.mk tag #[]).WellFormed :=
    ⟨fun id => (by simp [Graph.node, Node.members]), fun hn => (by simp [Graph.node] at hn)⟩
  exact hempty.addJson json

theorem kind_eq_reference : v.kind = .reference ↔ ∃ members, v.node = .reference members := by
  unfold kind Node.kind
  cases v.node <;> simp

/-- A reference of a well-formed graph refers to something. -/
theorem kind_of_reference? (hw : v.graph.WellFormed) (h : v.reference? = none) : v.kind ≠ .reference := by
  intro hk
  obtain ⟨members, hn⟩ := kind_eq_reference.1 hk
  obtain ⟨child, s, hl, hs⟩ := hw.reference hn
  have hchild : (v.atNode child).asString? = some s := by
    simp only [asString?, node, atNode, hs]
  simp [reference?, hn, hl, hchild] at h

theorem isArray_of_mem_elements {child : Value} (h : child ∈ v.elements) : v.isArray = true := by
  unfold elements at h
  cases hn : v.node <;> simp [hn, Node.items] at h
  simp [isArray, hn]

theorem not_isArray_of_mem_members {m : String × Value} (h : m ∈ v.members) : v.isArray = false := by
  unfold members at h
  cases hn : v.node <;> simp [hn, Node.members] at h <;> simp [isArray, hn]

end Value

/-- Only the nodes that there are have to be looked at. -/
theorem Graph.wellFormed_iff {g : Graph} : g.WellFormed ↔ ∀ id < g.nodes.size,
    ((g.node id).members.map (·.1)).Nodup ∧
      ((Value.mk g id).kind = .reference → (Value.mk g id).reference? ≠ none) := by
  refine ⟨fun hw id _ => ⟨hw.nodup_keys id, fun hk hr => Value.kind_of_reference? hw hr hk⟩,
    fun h => ⟨fun id => ?_, ?_⟩⟩
  · by_cases hid : id < g.nodes.size
    · exact (h id hid).1
    · rw [node, Array.getElem?_eq_none (Nat.le_of_not_lt hid)]
      exact List.nodup_nil
  · intro id members hn
    have hid : id < g.nodes.size := by
      by_contra hid
      rw [node, Array.getElem?_eq_none (Nat.le_of_not_lt hid)] at hn
      cases hn
    obtain ⟨s, hs⟩ := Option.ne_none_iff_exists'.mp ((h id hid).2 (Value.kind_eq_reference.2 ⟨members, hn⟩))
    simp only [Value.reference?, Value.node, hn] at hs
    obtain ⟨child, hchild, hs⟩ := Option.bind_eq_some_iff.mp hs
    refine ⟨child, s, hchild, ?_⟩
    simp only [Value.asString?, Value.node, Value.atNode] at hs
    cases hnode : g.node child <;> rw [hnode] at hs <;> cases hs
    rfl

instance (g : Graph) : Decidable g.WellFormed := decidable_of_iff' _ Graph.wellFormed_iff

theorem mem_of_lookup {α β : Type} [BEq α] [LawfulBEq α] {l : List (α × β)} {a : α} {b : β}
    (h : l.lookup a = some b) : (a, b) ∈ l := by
  obtain ⟨l₁, l₂, rfl, -⟩ := List.lookup_eq_some_iff.mp h
  simp

/-- Under distinct keys a key is looked up to the value that stands with it. -/
theorem lookup_of_mem {α : Type} {key : String} {value : α} {l : List (String × α)} (hn : (l.map (·.1)).Nodup)
    (h : (key, value) ∈ l) : l.lookup key = some value := by
  induction l with
  | nil => cases h
  | cons m l ih =>
    obtain ⟨k, w⟩ := m
    rw [List.map_cons, List.nodup_cons] at hn
    rcases List.mem_cons.mp h with heq | hmem
    · cases heq
      exact List.lookup_cons_self
    · have hne : key ≠ k := by
        rintro rfl
        exact hn.1 (List.mem_map.mpr ⟨_, hmem, rfl⟩)
      rw [List.lookup_cons, beq_eq_false_iff_ne.mpr hne]
      exact ih hn.2 hmem

end JsonSchema
