import JsonSchema.Proofs.RoundTrip

/-!
What a graph shows of JSON data (`Graph.Shows`), and that nothing in it is shared (`Value.Unshared`). The value that is
built from JSON data shows the data (`Value.shows_ofJson`) and shares nothing (`Value.unshared_ofJson`): whatever is
added to a graph for a piece of data keeps to itself (`Graph.Adds`).
-/

namespace JsonSchema

/-! ### What is shown, and where -/

/-- No array or object stands in two places: the root stands in no other place, and no child in a second one. -/
structure Value.Unshared (v : Value) : Prop where
  root : ∀ {a}, v.graph.Reaches v.id a → v.node.isComposite = true → v.id ∉ (v.graph.node a).children
  child : ∀ {a b i j c : Nat}, v.graph.Reaches v.id a → v.graph.Reaches v.id b →
    (v.graph.node a).children[i]? = some c → (v.graph.node b).children[j]? = some c →
    (v.graph.node c).isComposite = true → a = b ∧ i = j

/-- The node shows the data: a number is an integer if 64 bits with a sign hold it, and otherwise the nearest
floating-point number, the elements stand in the same order, the members under the same keys in the order of their first
places, each with its last value, and an object is a reference if it holds a string under the reserved name. -/
inductive Graph.Shows (g : Graph) : Json → Nat → Prop
  | null {id} : g.node id = .null → Shows g .null id
  | bool {id b} : g.node id = .boolean b → Shows g (.bool b) id
  | integer {id n i} : n.asInteger? = some i → g.node id = .integer i → Shows g (.number n) id
  | number {id n} : n.asInteger? = none → g.node id = .number n.toDouble → Shows g (.number n) id
  | string {id s} : g.node id = .string s → Shows g (.string s) id
  | array {items ids id} : g.node id = .array ids → items.length = ids.length →
      (∀ {json child}, (json, child) ∈ items.zip ids → Shows g json child) → Shows g (.array items) id
  | object {members ids id} :
      g.node id = .object ids ∧ (∀ s, (Members.ofList members).lookup referenceKey ≠ some (.string s)) ∨
        g.node id = .reference ids ∧ (∃ s, (Members.ofList members).lookup referenceKey = some (.string s)) →
      (Members.ofList members).map (·.1) = ids.map (·.1) →
      (∀ {m n}, (m, n) ∈ (Members.ofList members).zip ids → Shows g m.2 n.2) → Shows g (.object members) id

namespace Members

variable {α β : Type} {R : α → β → Prop} {l : List (String × α)} {r : List (String × β)}

/-- Members that are related one by one stay so when one of them is set. -/
theorem forall₂_insert (h : List.Forall₂ (fun a b => a.1 = b.1 ∧ R a.2 b.2) l r) (key : String) {x : α} {y : β}
    (hxy : R x y) : List.Forall₂ (fun a b => a.1 = b.1 ∧ R a.2 b.2) (insert key x l) (insert key y r) := by
  induction h with
  | nil => exact .cons ⟨rfl, hxy⟩ .nil
  | @cons a b l r hab h ih =>
    obtain ⟨k, v⟩ := a
    obtain ⟨k', v'⟩ := b
    obtain ⟨rfl, hv⟩ := hab
    unfold insert
    split
    · exact .cons ⟨rfl, hxy⟩ h
    · exact .cons ⟨rfl, hv⟩ ih

theorem forall₂_ofList (h : List.Forall₂ (fun a b => a.1 = b.1 ∧ R a.2 b.2) l r) :
    List.Forall₂ (fun a b => a.1 = b.1 ∧ R a.2 b.2) (ofList l) (ofList r) := by
  have hfold : ∀ {acc acc'}, List.Forall₂ (fun a b => a.1 = b.1 ∧ R a.2 b.2) acc acc' →
      List.Forall₂ (fun a b => a.1 = b.1 ∧ R a.2 b.2) (l.foldl (fun acc m => insert m.1 m.2 acc) acc)
        (r.foldl (fun acc m => insert m.1 m.2 acc) acc') := by
    induction h with
    | nil => exact fun hacc => hacc
    | @cons a b l r hab _ ih =>
      obtain ⟨k, x⟩ := a
      obtain ⟨k', y⟩ := b
      obtain ⟨rfl, hxy⟩ := hab
      exact fun hacc => ih (forall₂_insert hacc k hxy)
  exact hfold .nil

theorem subperm_insert (key : String) (value : α) (l : List (String × α)) :
    ((insert key value l).map (·.2)).Subperm (l.map (·.2) ++ [value]) := by
  induction l with
  | nil => exact .refl _
  | cons m l ih =>
    obtain ⟨k, v⟩ := m
    unfold insert
    split
    · refine List.Subperm.cons_right v (List.Perm.subperm ?_)
      exact (List.perm_append_singleton value (l.map (·.2))).symm
    · exact (List.subperm_cons v).mpr ih

/-- Of the values of a list, each is kept at most as often as it stands there. -/
theorem subperm_ofList (l : List (String × α)) : ((ofList l).map (·.2)).Subperm (l.map (·.2)) := by
  have hfold : ∀ acc : List (String × α),
      ((l.foldl (fun acc m => insert m.1 m.2 acc) acc).map (·.2)).Subperm (acc.map (·.2) ++ l.map (·.2)) := by
    induction l with
    | nil => exact fun acc => by simpa using List.Subperm.refl _
    | cons m l ih =>
      intro acc
      have hstep := (subperm_insert m.1 m.2 acc).append (List.Subperm.refl (l.map (·.2)))
      simpa using (ih (insert m.1 m.2 acc)).trans hstep
  exact hfold []

end Members

theorem nodup_of_subperm {α : Type} {l r : List α} (h : l.Subperm r) (hr : r.Nodup) : l.Nodup := by
  obtain ⟨l', hperm, hsub⟩ := h
  exact hperm.nodup_iff.mp (hr.sublist hsub)

/-! ### Nothing is shared -/

namespace Graph

variable {nodes nodes' nodes'' : Array Node} {tops tops' : List Nat}

/-- What was added to a graph keeps to itself: no node among it stands in two places, nor do the ones on top, which
stand in none. -/
structure Adds (nodes nodes' : Array Node) (tops : List Nat) : Prop where
  size_le : nodes.size ≤ nodes'.size
  keeps : ∀ {id : Nat} {n : Node}, nodes[id]? = some n → nodes'[id]? = some n
  top : ∀ {t}, t ∈ tops → nodes.size ≤ t ∧ t < nodes'.size
  nodup : tops.Nodup
  child : ∀ {a : Nat} {n : Node}, nodes.size ≤ a → nodes'[a]? = some n →
    ∀ c ∈ n.children, nodes.size ≤ c ∧ c < nodes'.size ∧ c ∉ tops
  single : ∀ {a b i j c : Nat} {n m : Node}, nodes.size ≤ a → nodes.size ≤ b →
    nodes'[a]? = some n → nodes'[b]? = some m → n.children[i]? = some c → m.children[j]? = some c → a = b ∧ i = j

theorem Adds.refl (nodes : Array Node) : Adds nodes nodes [] := by
  have hnone : ∀ {a : Nat} {n : Node}, nodes.size ≤ a → nodes[a]? ≠ some n := fun ha hn =>
    Nat.not_lt.mpr ha (Array.getElem?_eq_some_iff.mp hn).1
  exact ⟨Nat.le_refl _, id, by simp, List.nodup_nil, fun ha hn => absurd hn (hnone ha),
    fun ha _ hn => absurd hn (hnone ha)⟩

theorem Adds.eq_of_lt (h : Adds nodes nodes' tops) {a : Nat} (ha : a < nodes.size) : nodes'[a]? = nodes[a]? := by
  rw [h.keeps (Array.getElem?_eq_getElem ha), Array.getElem?_eq_getElem ha]

theorem Adds.trans (h : Adds nodes nodes' tops) (h' : Adds nodes' nodes'' tops') :
    Adds nodes nodes'' (tops ++ tops') := by
  have hchild : ∀ {a : Nat} {n : Node}, nodes.size ≤ a → nodes''[a]? = some n → ∀ c ∈ n.children,
      a < nodes'.size ∧ nodes'[a]? = some n ∧ nodes.size ≤ c ∧ c < nodes'.size ∧ c ∉ tops ∨
        nodes'.size ≤ a ∧ nodes'.size ≤ c ∧ c < nodes''.size ∧ c ∉ tops' := by
    intro a n ha hn c hc
    by_cases hlt : a < nodes'.size
    · rw [h'.eq_of_lt hlt] at hn
      exact .inl ⟨hlt, hn, h.child ha hn c hc⟩
    · exact .inr ⟨Nat.not_lt.mp hlt, h'.child (Nat.not_lt.mp hlt) hn c hc⟩
  have hsize := h.size_le
  have hsize' := h'.size_le
  refine ⟨by omega, fun hn => h'.keeps (h.keeps hn), fun ht => ?_, ?_, fun ha hn c hc => ?_, ?_⟩
  · rcases List.mem_append.mp ht with ht | ht
    · have := h.top ht
      omega
    · have := h'.top ht
      omega
  · refine List.nodup_append.mpr ⟨h.nodup, h'.nodup, fun a ha b hb heq => ?_⟩
    have := h.top ha
    have := h'.top hb
    omega
  · rw [List.mem_append, not_or]
    rcases hchild ha hn c hc with ⟨-, -, hle, hlt, htop⟩ | ⟨-, hle, hlt, htop⟩
    · exact ⟨hle, by omega, htop, fun ht => by have := h'.top ht; omega⟩
    · exact ⟨by omega, hlt, fun ht => by have := h.top ht; omega, htop⟩
  · intro a b i j c n m ha hb hn hm hi hj
    have hmem := List.mem_of_getElem? hi
    have hmem' := List.mem_of_getElem? hj
    rcases hchild ha hn c hmem with ⟨-, hn', -, hlt, -⟩ | ⟨ha', hle, -⟩ <;>
      rcases hchild hb hm c hmem' with ⟨-, hm', -, hlt', -⟩ | ⟨hb', hle', -⟩
    · exact h.single ha hb hn' hm' hi hj
    · omega
    · omega
    · exact h'.single ha' hb' hn hm hi hj

/-- A node over what is on top. -/
theorem Adds.push (h : Adds nodes nodes' tops) {n : Node} (hsub : n.children.Subperm tops) :
    Adds nodes (nodes'.push n) [nodes'.size] := by
  have hsize := h.size_le
  have hpush : ∀ {a : Nat} {m : Node}, (nodes'.push n)[a]? = some m →
      a = nodes'.size ∧ m = n ∨ nodes'[a]? = some m := by
    intro a m hm
    rw [Array.getElem?_push] at hm
    split at hm
    · next ha => exact .inl ⟨ha, (Option.some.inj hm).symm⟩
    · exact .inr hm
  have hlt : ∀ {a : Nat} {m : Node}, nodes'[a]? = some m → a < nodes'.size := fun hm =>
    (Array.getElem?_eq_some_iff.mp hm).1
  refine ⟨by simp; omega, fun {id m} hm => ?_, by simp [hsize], by simp, fun {a m} ha hm c hc => ?_, ?_⟩
  · have hm' := h.keeps hm
    rw [Array.getElem?_push, if_neg (Nat.ne_of_lt (hlt hm')), hm']
  · rw [List.mem_singleton, Array.size_push]
    rcases hpush hm with ⟨-, rfl⟩ | hm
    · have := h.top (hsub.subset hc)
      omega
    · have := h.child ha hm c hc
      omega
  · intro a b i j c m k ha hb hm hk hi hj
    have hmem := List.mem_of_getElem? hi
    have hmem' := List.mem_of_getElem? hj
    rcases hpush hm with ⟨rfl, rfl⟩ | hold <;> rcases hpush hk with ⟨rfl, rfl⟩ | hold'
    · have hnodup := nodup_of_subperm hsub h.nodup
      exact ⟨rfl, (List.getElem?_inj (List.getElem?_eq_some_iff.mp hi).1 hnodup).mp (hi.trans hj.symm)⟩
    · exact absurd (hsub.subset hmem) (h.child hb hold' c hmem').2.2
    · exact absurd (hsub.subset hmem') (h.child ha hold c hmem).2.2
    · exact h.single ha hb hold hold' hi hj

theorem children_ofMembers (nodes : Array Node) (members : List (String × Nat)) :
    (Node.ofMembers nodes members).children = members.map (·.2) := by
  unfold Node.ofMembers
  split <;> rfl

mutual

/-- JSON data is added with one new node for each piece of it. -/
theorem adds_addJson (nodes : Array Node) (json : Json) :
    Adds nodes (Node.addJson nodes json).2 [(Node.addJson nodes json).1] := by
  cases json with
  | array items => exact (adds_addItems nodes items).push (List.Subperm.refl _)
  | object members =>
    refine (adds_addMembers nodes members).push ?_
    rw [children_ofMembers]
    exact Members.subperm_ofList _
  | number n =>
    refine (Adds.refl nodes).push ?_
    rw [Node.children_ofNumber]
  | _ => exact (Adds.refl nodes).push (List.Subperm.refl _)

theorem adds_addItems (nodes : Array Node) (items : List Json) :
    Adds nodes (Node.addItems nodes items).2 (Node.addItems nodes items).1 := by
  cases items with
  | nil => exact .refl nodes
  | cons json rest => exact (adds_addJson nodes json).trans (adds_addItems _ rest)

theorem adds_addMembers (nodes : Array Node) (members : List (String × Json)) :
    Adds nodes (Node.addMembers nodes members).2 ((Node.addMembers nodes members).1.map (·.2)) := by
  cases members with
  | nil => exact .refl nodes
  | cons m rest => exact (adds_addJson nodes m.2).trans (adds_addMembers _ rest)

end

theorem getElem?_of_mem_children {g : Graph} {id c : Nat} (h : c ∈ (g.node id).children) :
    g.nodes[id]? = some (g.node id) := by
  unfold Graph.node at h ⊢
  cases hn : g.nodes[id]? with
  | none => simp [hn, Node.children] at h
  | some n => rfl

end Graph

theorem Value.unshared_ofJson (tag : Nat) (json : Json) : (ofJson tag json).Unshared := by
  have h : Graph.Adds #[] (ofJson tag json).graph.nodes [(ofJson tag json).id] := Graph.adds_addJson #[] json
  refine ⟨fun {a} _ _ hc => ?_, fun {a b i j c} _ _ hi hj _ => ?_⟩
  · exact (h.child (Nat.zero_le a) (Graph.getElem?_of_mem_children hc) _ hc).2.2 List.mem_cons_self
  · exact h.single (Nat.zero_le a) (Nat.zero_le b) (Graph.getElem?_of_mem_children (List.mem_of_getElem? hi))
      (Graph.getElem?_of_mem_children (List.mem_of_getElem? hj)) hi hj

/-! ### What the graph shows -/

namespace Graph

variable {g g' : Graph} {json : Json} {id : Nat}

theorem Shows.of_items {items : List Json} {ids : List Nat} (hn : g.node id = .array ids)
    (h : List.Forall₂ g.Shows items ids) : g.Shows (.array items) id :=
  .array hn (List.forall₂_iff_zip.mp h).1 (List.forall₂_iff_zip.mp h).2

/-- Only a string is shown by the node of a string. -/
theorem Shows.node_eq_string_iff (h : g.Shows json id) {s : String} : g.node id = .string s ↔ json = .string s := by
  cases h with
  | object hn => rcases hn with ⟨hn, -⟩ | ⟨hn, -⟩ <;> simp [hn]
  | integer _ hn => simp [hn]
  | number _ hn => simp [hn]
  | _ hn => simp [hn]

theorem Shows.object_of {members : List (String × Json)} {ids : List (String × Nat)}
    (hn : g.node id = .object ids ∧ (∀ s, (Members.ofList members).lookup referenceKey ≠ some (.string s)) ∨
      g.node id = .reference ids ∧ (∃ s, (Members.ofList members).lookup referenceKey = some (.string s)))
    (h : List.Forall₂ (fun m n => m.1 = n.1 ∧ g.Shows m.2 n.2) (Members.ofList members) ids) :
    g.Shows (.object members) id :=
  .object hn (map_fst_of_forall₂ h).symm fun hm => ((List.forall₂_iff_zip.mp h).2 hm).2

/-- In a proper graph the node of an object is a reference where it has to be one. -/
theorem Shows.of_members (hg : g.Proper) {members : List (String × Json)} {ids : List (String × Nat)}
    (hn : g.node id = .object ids ∨ g.node id = .reference ids)
    (h : List.Forall₂ (fun m n => m.1 = n.1 ∧ g.Shows m.2 n.2) (Members.ofList members) ids) :
    g.Shows (.object members) id := by
  have hlookup := lookup_rel h referenceKey
  refine .object_of (hn.imp (fun hn => ⟨hn, fun s hs => ?_⟩) fun hn => ⟨hn, ?_⟩) h
  · rw [hs] at hlookup
    cases hchild : ids.lookup referenceKey with
    | none =>
      rw [hchild] at hlookup
      cases hlookup
    | some child =>
      rw [hchild, Option.rel_some_some] at hlookup
      exact hg.object hn hchild (hlookup.node_eq_string_iff.mpr rfl)
  · obtain ⟨child, s, hchild, hs⟩ := hg.reference hn
    rw [hchild] at hlookup
    cases hjson : (Members.ofList members).lookup referenceKey with
    | none =>
      rw [hjson] at hlookup
      cases hlookup
    | some data =>
      rw [hjson, Option.rel_some_some] at hlookup
      exact ⟨s, congrArg some (hlookup.node_eq_string_iff.mp hs)⟩

/-- Nodes that are added later change nothing in what is shown. -/
theorem Shows.mono (h : g.Shows json id) {size : Nat} (hid : id < size)
    (hchild : ∀ a < size, ∀ c ∈ (g.node a).children, c < size) (hsame : ∀ a < size, g'.node a = g.node a) :
    g'.Shows json id := by
  induction h with
  | null hn => exact .null ((hsame _ hid).trans hn)
  | bool hn => exact .bool ((hsame _ hid).trans hn)
  | integer hinteger hn => exact .integer hinteger ((hsame _ hid).trans hn)
  | number hnone hn => exact .number hnone ((hsame _ hid).trans hn)
  | string hn => exact .string ((hsame _ hid).trans hn)
  | @array items ids id hn hlength _ ih =>
    refine .array ((hsame _ hid).trans hn) hlength fun hm => ih hm (hchild _ hid _ ?_)
    rw [hn]
    exact (List.of_mem_zip hm).2
  | @object members ids id hn hkeys _ ih =>
    refine .object ?_ hkeys fun hm => ih hm (hchild _ hid _ ?_)
    · rw [hsame _ hid]
      exact hn
    · rcases hn with ⟨hn, -⟩ | ⟨hn, -⟩ <;>
      · rw [hn]
        exact List.mem_map_of_mem (List.of_mem_zip hm).2

variable {tag : Nat} {nodes : Array Node}

theorem node_eq_of_adds {nodes' : Array Node} {tops : List Nat} (h : Adds nodes nodes' tops) :
    ∀ a < nodes.size, (Graph.mk tag nodes').node a = (Graph.mk tag nodes).node a := by
  intro a ha
  rw [Graph.node, h.eq_of_lt ha]
  rfl

theorem Ordered.shows_later (hg : Ordered tag nodes) {nodes' : Array Node} (h : (Graph.mk tag nodes).Shows json id)
    (hid : id < nodes.size) (hsame : ∀ a < nodes.size, (Graph.mk tag nodes').node a = (Graph.mk tag nodes).node a) :
    (Graph.mk tag nodes').Shows json id :=
  h.mono hid (fun a ha c hc => Nat.lt_trans (hg.child_lt a c hc) ha) hsame

theorem node_push_of_lt (n : Node) : ∀ a < nodes.size,
    (Graph.mk tag (nodes.push n)).node a = (Graph.mk tag nodes).node a := fun a ha => by
  rw [node_push, if_neg (Nat.ne_of_lt ha)]

theorem node_push_size (nodes : Array Node) (n : Node) : (Graph.mk tag (nodes.push n)).node nodes.size = n := by
  rw [node_push, if_pos rfl]

mutual

/-- The node that is added last shows the data. -/
theorem Ordered.shows_addJson {nodes : Array Node} (h : Ordered tag nodes) (json : Json) :
    (Graph.mk tag (Node.addJson nodes json).2).Shows json (Node.addJson nodes json).1 := by
  cases json with
  | null => exact .null (node_push_size _ _)
  | bool b => exact .bool (node_push_size _ _)
  | number n =>
    have hnode : (Graph.mk tag (nodes.push (.ofNumber n))).node nodes.size = .ofNumber n := node_push_size nodes _
    cases hinteger : n.asInteger? with
    | some i => exact .integer hinteger (hnode.trans (Node.ofNumber_of_integer hinteger))
    | none => exact .number hinteger (hnode.trans (Node.ofNumber_of_none hinteger))
  | string s => exact .string (node_push_size _ _)
  | array items =>
    obtain ⟨hg, -, hids⟩ := h.addItems items
    have hitems := (List.forall₂_and_left _ _).mpr ⟨hids, (h.shows_addItems items).flip⟩
    exact .of_items (node_push_size _ _) (hitems.flip.imp fun _ _ hm =>
      hg.shows_later hm.2 hm.1 (node_push_of_lt _))
  | object members =>
    obtain ⟨hg, -, hids⟩ := h.addMembers members
    have hmembers := (List.forall₂_and_left _ _).mpr ⟨hids, (h.shows_addMembers members).flip⟩
    have hn : ∀ (nodes : Array Node) ids, Node.ofMembers nodes ids = .object ids ∨
        Node.ofMembers nodes ids = .reference ids := fun nodes ids => by unfold Node.ofMembers; split <;> simp
    refine .of_members (h.addJson (.object members)).1.proper
      ((hn _ _).imp (node_push_size _ _).trans (node_push_size _ _).trans) (Members.forall₂_ofList ?_)
    exact hmembers.flip.imp fun _ _ hm => ⟨hm.2.1, hg.shows_later hm.2.2 hm.1 (node_push_of_lt _)⟩

theorem Ordered.shows_addItems {nodes : Array Node} (h : Ordered tag nodes) (items : List Json) :
    List.Forall₂ (Graph.mk tag (Node.addItems nodes items).2).Shows items (Node.addItems nodes items).1 := by
  cases items with
  | nil => exact .nil
  | cons json rest =>
    obtain ⟨h', -, hid⟩ := h.addJson json
    exact .cons (h'.shows_later (h.shows_addJson json) hid (node_eq_of_adds (adds_addItems _ rest)))
      (h'.shows_addItems rest)

theorem Ordered.shows_addMembers {nodes : Array Node} (h : Ordered tag nodes) (members : List (String × Json)) :
    List.Forall₂ (fun m n => m.1 = n.1 ∧ (Graph.mk tag (Node.addMembers nodes members).2).Shows m.2 n.2) members
      (Node.addMembers nodes members).1 := by
  cases members with
  | nil => exact .nil
  | cons m rest =>
    obtain ⟨h', -, hid⟩ := h.addJson m.2
    exact .cons ⟨rfl, h'.shows_later (h.shows_addJson m.2) hid (node_eq_of_adds (adds_addMembers _ rest))⟩
      (h'.shows_addMembers rest)

end

end Graph

theorem Value.shows_ofJson (tag : Nat) (json : Json) :
    (ofJson tag json).graph.Shows json (ofJson tag json).id :=
  (Graph.ordered_empty tag).shows_addJson json

end JsonSchema
