import JsonSchema.Proofs.Isomorphism
import JsonSchema.Proofs.Places

/-!
A value mirrors a tree (`Value.Mirrors`): a one-to-one map takes the arrays and objects that can be reached in the tree
to those of the value, each to a node that lists the same keys and scalars in the same order. Of a tree that was built
cell by cell (`Heap.Built`), every address leads to a cell, and the value of the tree mirrors it
(`Value.Represents.mirrors`).

The loop that fills pending nodes comes to an end of its own: `Transformation.Drains` says what it does without fuel,
and `Transformation.drains_drain` that the fuel it is given is never short.
-/

namespace JsonSchema

/-! ### Trees as they are built -/

/-- The item is a scalar, or the address of a cell of the heap. -/
def Item.Within (heap : Heap) : Item → Prop
  | .cell address => address < heap.size
  | _ => True

instance (heap : Heap) (item : Item) : Decidable (item.Within heap) :=
  match item with
  | .cell address => inferInstanceAs (Decidable (address < heap.size))
  | .null | .boolean _ | .integer _ | .number _ | .string _ | .bytes _ | .dateTime _ => isTrue trivial

/-- The heaps that come of new cells and of changes to cells, where only what is at hand is put into a cell. -/
inductive Heap.Built : Heap → Prop
  | empty : Built Heap.empty
  | newArray {heap : Heap} {items : List Item} : Built heap → (∀ item ∈ items, item.Within heap) →
      Built (heap.newArray items).2
  | newObject {heap : Heap} {members : List (String × Item)} : Built heap → (∀ m ∈ members, m.2.Within heap) →
      Built (heap.newObject members).2
  | push {heap : Heap} {target item : Item} : Built heap → item.Within heap → Built (heap.push target item)
  | insert {heap : Heap} {target : Item} {key : String} {item : Item} : Built heap → item.Within heap →
      Built (heap.insert target key item)
  | clear {heap : Heap} {target : Item} : Built heap → Built (heap.clear target)

/-- Every address in a cell is the address of a cell. -/
def Heap.Closed (heap : Heap) : Prop :=
  ∀ (address : Nat) (cell : Cell), heap.cells[address]? = some cell → ∀ item ∈ cell.items, item.Within heap

namespace Members

variable {α : Type} {key : String} {value : α} {l : List (String × α)}

theorem forall_mem_insert {P : α → Prop} (hvalue : P value) (hl : ∀ m ∈ l, P m.2) :
    ∀ m ∈ insert key value l, P m.2 := by
  induction l with
  | nil => simpa [insert] using hvalue
  | cons m l ih =>
    obtain ⟨k, v⟩ := m
    rw [List.forall_mem_cons] at hl
    unfold insert
    split
    · exact List.forall_mem_cons.mpr ⟨hvalue, hl.2⟩
    · exact List.forall_mem_cons.mpr ⟨hl.1, ih hl.2⟩

theorem forall_mem_ofList {P : α → Prop} (hl : ∀ m ∈ l, P m.2) : ∀ m ∈ ofList l, P m.2 := by
  have h : ∀ acc : List (String × α), (∀ m ∈ acc, P m.2) →
      ∀ m ∈ l.foldl (fun acc m => insert m.1 m.2 acc) acc, P m.2 := by
    induction l with
    | nil => exact fun acc hacc => hacc
    | cons m l ih =>
      rw [List.forall_mem_cons] at hl
      exact fun acc hacc => ih hl.2 _ (forall_mem_insert hl.1 hacc)
  exact h [] (by simp)

end Members

theorem Item.Within.mono {heap heap' : Heap} {item : Item} (h : item.Within heap) (hsize : heap.size ≤ heap'.size) :
    item.Within heap' := by
  cases item with
  | cell address => exact Nat.lt_of_lt_of_le h hsize
  | _ => trivial

namespace Heap

variable {heap : Heap} {root item : Item} {cell : Cell}

theorem Closed.allocate (h : heap.Closed) (hcell : ∀ item ∈ cell.items, item.Within heap) :
    (heap.allocate cell).2.Closed := by
  have hsize : heap.size ≤ (heap.allocate cell).2.size := by simp [Heap.allocate, size]
  exact fun a c hc item hi => (forall_allocate h hcell a c hc item hi).mono hsize

/-- A cell that is changed keeps to what was at hand. -/
theorem Closed.update (h : heap.Closed) (target : Item) {change : Cell → Cell}
    (hchange : ∀ cell : Cell, (∀ item ∈ cell.items, item.Within heap) →
      ∀ item ∈ (change cell).items, item.Within heap) :
    (heap.update target change).Closed := by
  have hsize := size_update heap target change
  exact fun a c hc item hi => (forall_update target h hchange a c hc item hi).mono (Nat.le_of_eq hsize.symm)

theorem Built.closed (h : heap.Built) : heap.Closed := by
  induction h with
  | empty => exact fun address cell hc => by simp [Heap.empty] at hc
  | newArray _ hitems ih => exact ih.allocate hitems
  | newObject _ hmembers ih =>
    refine ih.allocate fun item hi => ?_
    obtain ⟨m, hm, rfl⟩ := List.mem_map.mp hi
    exact Members.forall_mem_ofList hmembers m hm
  | push _ hitem ih =>
    refine ih.update _ fun cell hcell => ?_
    cases cell with
    | array items =>
      intro i hi
      rcases List.mem_append.mp hi with hi | hi
      · exact hcell i hi
      · exact List.mem_singleton.mp hi ▸ hitem
    | object members => exact hcell
  | insert _ hitem ih =>
    refine ih.update _ fun cell hcell => ?_
    cases cell with
    | array items => exact hcell
    | object members =>
      intro i hi
      obtain ⟨m, hm, rfl⟩ := List.mem_map.mp hi
      exact Members.forall_mem_insert hitem (fun m hm => hcell _ (List.mem_map_of_mem hm)) m hm
  | clear _ ih =>
    refine ih.update _ fun cell _ => ?_
    cases cell <;> simp [Cell.items]

theorem Built.wellFormed (h : heap.Built) : heap.WellFormed := by
  induction h with
  | empty => exact wellFormed_empty
  | newArray _ _ ih => exact ih.newArray _
  | newObject _ _ ih => exact ih.newObject _
  | push _ _ ih => exact ih.push _ _
  | insert _ _ ih => exact ih.insert _ _ _
  | clear _ ih => exact ih.clear _

/-- What can be reached from an item at hand is at hand. -/
theorem Closed.within_of_reaches (h : heap.Closed) (hroot : root.Within heap) (hr : heap.Reaches root item) :
    item.Within heap := by
  cases hr with
  | root => exact hroot
  | item _ hc hi => exact h _ _ hc item hi

end Heap

/-! ### The loop without fuel -/

namespace Transformation

variable {heap : Heap} {root : Item} {t : Transformation} {outcome outcome' : Except Unsupported Transformation}

/-- What the loop comes to if it comes to an end: the first pending node is filled, until none is left. -/
inductive Drains (heap : Heap) : Transformation → Except Unsupported Transformation → Prop
  | done {t : Transformation} : t.pending = [] → Drains heap t (.ok t)
  | failed {t : Transformation} {id address : Nat} {rest : List (Nat × Nat)} {kind : Unsupported} :
      t.pending = (id, address) :: rest →
      ({ t with pending := rest } : Transformation).fill id (heap.cells[address]?.getD (.array [])) = .error kind →
      Drains heap t (.error kind)
  | filled {t t' : Transformation} {id address : Nat} {rest : List (Nat × Nat)}
      {outcome : Except Unsupported Transformation} : t.pending = (id, address) :: rest →
      ({ t with pending := rest } : Transformation).fill id (heap.cells[address]?.getD (.array [])) = .ok t' →
      Drains heap t' outcome → Drains heap t outcome

theorem Drains.unique (h : Drains heap t outcome) (h' : Drains heap t outcome') : outcome = outcome' := by
  induction h with
  | done hp => cases h' <;> simp_all
  | failed hp hf => cases h' <;> simp_all
  | filled hp hf _ ih =>
    cases h' with
    | done hp' => simp_all
    | failed hp' hf' => simp_all
    | filled hp' hf' hrest => exact ih (by simp_all)

/-- Fuel for all that is left to do is never short. -/
theorem drains_drain {fuel : Nat} (h : t.Inv heap root none) (hw : t.work ≤ fuel) :
    Drains heap t (drain heap fuel t) := by
  induction fuel generalizing t with
  | zero => exact .done (List.length_eq_zero_iff.mp (by unfold work at hw; omega))
  | succ fuel ih =>
    rw [drain]
    split
    · next hp => exact .done hp
    · next id a rest hp =>
      have hk : t.known[a]? = some (some id) := h.known_of_pending (by rw [hp]; exact List.mem_cons_self)
      obtain ⟨cell, hc⟩ := h.cell_of_known hk
      cases hf : ({ t with pending := rest } : Transformation).fill id (heap.cells[a]?.getD (.array [])) with
      | error kind => exact .failed hp hf
      | ok t' =>
        have hf' := hf
        rw [hc, Option.getD_some] at hf'
        obtain ⟨h', hw', -⟩ := fill_spec (h.pop hp) hk hc hf'
        have hpop : ({ t with pending := rest } : Transformation).work + 1 = t.work := by
          simp only [work, hp, List.length_cons]
          omega
        exact .filled hp hf (ih h' (by omega))

end Transformation

/-- The outcome of a transformation whose loop runs until nothing is pending. -/
def Value.Transforms (tag : Nat) (heap : Heap) (item : Item) (outcome : Except Unsupported Value) : Prop :=
  match (Transformation.start heap).intern item with
  | .error kind => outcome = .error kind
  | .ok (id, t) => ∃ result, t.Drains heap result ∧ outcome = result.map fun t => ⟨⟨tag, t.nodes⟩, id⟩

/-- The loop comes to an end, and there is one outcome. -/
theorem Value.transforms_iff {tag : Nat} {heap : Heap} {item : Item} {outcome : Except Unsupported Value} :
    Value.Transforms tag heap item outcome ↔ outcome = Value.transform tag heap item := by
  unfold Transforms transform
  cases hi : (Transformation.start heap).intern item with
  | error kind => rfl
  | ok r =>
    obtain ⟨id, t⟩ := r
    obtain ⟨h, hg, -⟩ := Transformation.intern_spec (Transformation.inv_start heap item) .root hi
    have hw : t.work ≤ heap.size := Nat.le_of_eq (hg.work.trans (Transformation.work_start heap))
    have hdrains := Transformation.drains_drain h hw
    have hmap : ((t.drain heap heap.size).map fun t => (⟨⟨tag, t.nodes⟩, id⟩ : Value)) =
        (do let t ← t.drain heap heap.size; return ⟨⟨tag, t.nodes⟩, id⟩) := by
      cases t.drain heap heap.size <;> rfl
    simp only [bind, Except.bind] at hmap ⊢
    rw [← hmap]
    refine ⟨fun ⟨result, hresult, heq⟩ => ?_, fun heq => ⟨_, hdrains, heq⟩⟩
    rw [heq, hresult.unique hdrains]

/-! ### The mirror image -/

/-- The node stands for the item, where `f` gives the nodes of cells: a scalar is copied. -/
def Item.Placed (g : Graph) (f : Nat → Nat) : Item → Nat → Prop
  | .cell address, id => id = f address
  | item, id => item.scalar? = some (g.node id)

/-- `f` takes the arrays and objects that can be reached in a tree to those of a value. -/
structure Value.Mirrors (w : Value) (heap : Heap) (root : Item) (f : Nat → Nat) : Prop where
  root_placed : root.Placed w.graph f w.id
  bijective : Set.BijOn f {a | heap.Reaches root (.cell a)}
    {id | w.graph.Reaches w.id id ∧ (w.graph.node id).isComposite = true}
  cell : ∀ {address}, heap.Reaches root (.cell address) → ∃ cell, heap.cells[address]? = some cell ∧
    cell.Becomes (Item.Placed w.graph f) (w.graph.node (f address))

/-- Only what the cell holds has to be related. -/
theorem Cell.Becomes.mono_mem {at' at'' : Item → Nat → Prop} {cell : Cell} {node : Node} (hc : cell.Becomes at' node)
    (h : ∀ item ∈ cell.items, ∀ id, at' item id → at'' item id) : cell.Becomes at'' node := by
  cases cell with
  | array items =>
    obtain ⟨ids, hn, hf⟩ := hc
    exact ⟨ids, hn, ((List.forall₂_and_left _ _).mpr ⟨h, hf⟩).imp fun _ id hm => hm.1 id hm.2⟩
  | object members =>
    obtain ⟨ids, hn, hf⟩ := hc
    have hmembers : ∀ m ∈ members, ∀ id, at' m.2 id → at'' m.2 id := fun m hm => h m.2 (List.mem_map_of_mem hm)
    exact ⟨ids, hn, ((List.forall₂_and_left _ _).mpr ⟨hmembers, hf⟩).imp fun _ n hm => ⟨hm.2.1, hm.1 n.2 hm.2.2⟩⟩

namespace Value.Represents

variable {w : Value} {heap : Heap} {root item : Item} {place : Nat → Option Nat}

/-- An address that leads to a cell has its node. -/
theorem placed (h : w.Represents heap root place) (hr : heap.Reaches root item) (hin : item.Within heap) {id : Nat}
    (hat : item.At w.graph place id) : item.Placed w.graph (fun a => (place a).getD 0) id := by
  cases item with
  | cell address =>
    have hplace := h.place_of_reaches hr hin hat
    simp [Item.Placed, hplace]
  | _ => exact hat

/-- The value of a tree in which every address leads to a cell mirrors it. -/
theorem mirrors (h : w.Represents heap root place) (hin : ∀ item, heap.Reaches root item → item.Within heap) :
    w.Mirrors heap root fun a => (place a).getD 0 := by
  have hplace : ∀ {a}, heap.Reaches root (.cell a) → ∃ id, place a = some id := fun hr =>
    (h.place_iff _).mpr ⟨hr, hin _ hr⟩
  refine ⟨h.placed .root (hin root .root) h.root_at, ⟨fun a ha => ?_, fun a ha b hb heq => ?_, fun id hid => ?_⟩,
    fun {a} ha => ?_⟩
  · obtain ⟨id, hid⟩ := hplace ha
    obtain ⟨n, hn, hat⟩ := h.exists_node ha
    cases (h.place_of_reaches ha (hin _ ha) hat).symm.trans hid
    obtain ⟨cell, -, hbec⟩ := h.becomes hid
    simp only [hid, Option.getD_some]
    exact ⟨hn, Cell.isComposite_of_becomes hbec⟩
  · obtain ⟨n, hn⟩ := hplace ha
    obtain ⟨m, hm⟩ := hplace hb
    have heq : (place a).getD 0 = (place b).getD 0 := heq
    rw [hn, hm, Option.getD_some, Option.getD_some] at heq
    exact h.place_inj hn (heq ▸ hm)
  · obtain ⟨a, ha⟩ := h.place_of_composite hid.2
    exact ⟨a, ((h.place_iff a).mp ⟨id, ha⟩).1, by simp [ha]⟩
  · obtain ⟨id, hid⟩ := hplace ha
    obtain ⟨cell, hc, hbec⟩ := h.becomes hid
    refine ⟨cell, hc, ?_⟩
    simp only [hid, Option.getD_some]
    exact hbec.mono_mem fun item hi n hat =>
      h.placed (.item ha hc hi) (hin item (.item ha hc hi)) hat

end Value.Represents

/-! ### Members and references of the image -/

namespace Members

variable {α : Type} {l : List (String × α)}

/-- Members under distinct keys stay as they are. -/
theorem ofList_of_nodup (h : (l.map (·.1)).Nodup) : ofList l = l := by
  have hfold : ∀ acc : List (String × α), ((acc ++ l).map (·.1)).Nodup →
      l.foldl (fun acc m => insert m.1 m.2 acc) acc = acc ++ l := by
    clear h
    induction l with
    | nil => simp
    | cons m l ih =>
      intro acc hacc
      have hm : m.1 ∉ acc.map (·.1) := fun hm => by
        rw [List.map_append, List.map_cons, List.nodup_append] at hacc
        exact hacc.2.2 _ hm _ List.mem_cons_self rfl
      rw [List.foldl_cons, insert_of_not_mem hm, ih _ (by simpa using hacc), List.append_assoc]
      rfl
  exact hfold [] (by simpa using h)

/-- The position of every key. -/
def index (l : List (String × α)) : List (String × Nat) := ofList (l.zipIdx.map fun m => (m.1.1, m.2))

/-- The value of the member at the position of a key. -/
def atIndex? (l : List (String × α)) (key : String) : Option α :=
  ((index l).lookup key).bind fun i => l[i]?.map (·.2)

theorem mem_index_iff (h : (l.map (·.1)).Nodup) {key : String} {i : Nat} :
    (index l).lookup key = some i ↔ ∃ value, l[i]? = some (key, value) := by
  have hkeys : (l.zipIdx.map fun m => (m.1.1, m.2)).map (·.1) = l.map (·.1) := by
    rw [List.map_map, ← List.zipIdx_map_fst 0 l, List.map_map]
    simp
  have hnodup : ((l.zipIdx.map fun m => (m.1.1, m.2)).map (·.1)).Nodup := hkeys ▸ h
  rw [index, ofList_of_nodup hnodup]
  constructor
  · intro hl
    obtain ⟨⟨⟨k, value⟩, j⟩, hm, heq⟩ := List.mem_map.mp (mem_of_lookup hl)
    cases heq
    exact ⟨value, List.mk_mem_zipIdx_iff_getElem?.mp hm⟩
  · rintro ⟨value, hl⟩
    exact lookup_of_mem hnodup (List.mem_map.mpr ⟨_, List.mk_mem_zipIdx_iff_getElem?.mpr hl, rfl⟩)

/-- Under distinct keys a member is found at the position of its key. -/
theorem atIndex?_eq_lookup (h : (l.map (·.1)).Nodup) (key : String) : atIndex? l key = l.lookup key := by
  ext value
  rw [atIndex?, Option.bind_eq_some_iff]
  constructor
  · rintro ⟨i, hi, hvalue⟩
    obtain ⟨v, hv⟩ := (mem_index_iff h).mp hi
    rw [hv] at hvalue
    cases hvalue
    exact lookup_of_mem h (List.mem_of_getElem? hv)
  · intro hl
    obtain ⟨i, hi⟩ := List.mem_iff_getElem?.mp (mem_of_lookup hl)
    exact ⟨i, (mem_index_iff h).mpr ⟨value, hi⟩, by rw [hi]; rfl⟩

end Members

namespace Value

variable {v w : Value} {heap : Heap} {root : Item} {f : Nat → Nat}

theorem get?_eq_some_iff (v : Value) (hv : v.graph.WellFormed) {key : String} {child : Value} :
    v.get? key = some child ↔ (key, child) ∈ v.members :=
  ⟨mem_members_of_get?, get?_of_mem_members hv⟩

/-- The member under a key is the one at the position of the key. -/
theorem atIndex?_members (v : Value) (hv : v.graph.WellFormed) (key : String) :
    Members.atIndex? v.members key = v.get? key := by
  have hnodup : (v.members.map (·.1)).Nodup := by
    rw [members, List.map_map]
    exact hv.nodup_keys v.id
  ext child
  rw [Members.atIndex?_eq_lookup hnodup, v.get?_eq_some_iff hv]
  exact ⟨mem_of_lookup, lookup_of_mem hnodup⟩

theorem reference?_isSome_iff (v : Value) (hv : v.graph.WellFormed) : v.reference?.isSome ↔ v.kind = .reference := by
  constructor
  · intro h
    unfold reference? at h
    split at h
    · next members hn => exact kind_eq_reference.mpr ⟨members, hn⟩
    · cases h
  · intro h
    by_contra hnone
    exact kind_of_reference? hv (by simpa using hnone) h

/-- The references of the image are the objects that hold a string under the reserved name. -/
theorem Mirrors.reference?_eq_some_iff (h : w.Mirrors heap root f) (hheap : heap.WellFormed) {address : Nat}
    (hr : heap.Reaches root (.cell address)) {s : String} :
    (w.atNode (f address)).reference? = some s ↔
      ∃ members, heap.cells[address]? = some (.object members) ∧ (referenceKey, .string s) ∈ members := by
  obtain ⟨cell, hc, hbec⟩ := h.cell hr
  cases cell with
  | array items =>
    obtain ⟨ids, hn, -⟩ := hbec
    simp [reference?, node, atNode, hn, hc]
  | object members =>
    obtain ⟨ids, hn, hf⟩ := hbec
    have hlookup : (∃ ms, heap.cells[address]? = some (.object ms) ∧ (referenceKey, Item.string s) ∈ ms) ↔
        members.lookup referenceKey = some (.string s) := by
      rw [hc]
      constructor
      · rintro ⟨ms, heq, hm⟩
        cases heq
        exact lookup_of_mem (hheap _ _ hc) hm
      · exact fun hl => ⟨members, rfl, mem_of_lookup hl⟩
    rw [hlookup]
    by_cases href : (Cell.object members).isReference = true
    · rw [if_pos href] at hn
      obtain ⟨s', hs'⟩ := Cell.isReference_object.mp href
      have hrel := lookup_rel hf referenceKey
      rw [hs'] at hrel
      cases hid : ids.lookup referenceKey with
      | none =>
        rw [hid] at hrel
        cases hrel
      | some id =>
        rw [hid, Option.rel_some_some] at hrel
        have hnode : w.graph.node id = .string s' := (Option.some.inj hrel).symm
        simp [reference?, node, atNode, hn, hid, asString?, hnode, hs']
    · rw [if_neg href] at hn
      have hne : members.lookup referenceKey ≠ some (.string s) := fun hl =>
        href (Cell.isReference_object.mpr ⟨s, hl⟩)
      simp [reference?, node, atNode, hn, hne]

end Value

/-- A transformation fails exactly if bytes or a native date-time can be reached. -/
theorem transform_fails_iff {tag : Nat} {heap : Heap} {root : Item} :
    (∃ kind, Value.transform tag heap root = .error kind) ↔
      ∃ item, heap.Reaches root item ∧ item.unsupported?.isSome := by
  constructor
  · rintro ⟨kind, hkind⟩
    obtain ⟨item, hr, hu⟩ := transform_eq_error hkind
    exact ⟨item, hr, Option.isSome_of_eq_some hu⟩
  · rintro ⟨item, hr, hu⟩
    cases h : Value.transform tag heap root with
    | error kind => exact ⟨kind, rfl⟩
    | ok w =>
      obtain ⟨-, place, hplace⟩ := transform_represents h
      obtain ⟨id, -, hat⟩ := hplace.exists_node hr
      cases item <;> simp_all [Item.unsupported?, Item.At, Item.scalar?]

/-- A tree that was built cell by cell is turned into a value. The loop comes to an end, with one outcome; this is a
failure exactly if bytes or a native date-time can be reached, one of which is named. Otherwise the value mirrors the
tree. The keys of its objects are distinct, what is found under a key is what stands with it, and it is found at the
position of the key. A node is a reference exactly if what it refers to is known, and this is the string that its
object holds under the reserved name. -/
theorem transform_mirrors {heap : Heap} {root : Item} (hheap : heap.Built) (hroot : root.Within heap) (tag : Nat) :
    (∀ outcome, Value.Transforms tag heap root outcome ↔ outcome = Value.transform tag heap root) ∧
    ((∃ kind, Value.transform tag heap root = .error kind) ↔
      ∃ item, heap.Reaches root item ∧ item.unsupported?.isSome) ∧
    (∀ kind, Value.transform tag heap root = .error kind →
      ∃ item, heap.Reaches root item ∧ item.unsupported? = some kind) ∧
    ∀ w, Value.transform tag heap root = .ok w → ∃ f, w.Mirrors heap root f ∧
      (∀ id, (w.atNode id).keys.Nodup) ∧
      (∀ id key child, (w.atNode id).get? key = some child ↔ (key, child) ∈ (w.atNode id).members) ∧
      (∀ id key, Members.atIndex? (w.atNode id).members key = (w.atNode id).get? key) ∧
      (∀ id, (w.atNode id).reference?.isSome ↔ (w.atNode id).kind = .reference) ∧
      ∀ address s, heap.Reaches root (.cell address) →
        ((w.atNode (f address)).reference? = some s ↔
          ∃ members, heap.cells[address]? = some (.object members) ∧ (referenceKey, .string s) ∈ members) := by
  refine ⟨fun _ => Value.transforms_iff, transform_fails_iff, fun _ => transform_eq_error, fun w hw => ?_⟩
  obtain ⟨-, place, hplace⟩ := transform_represents hw
  have hgraph := hplace.wellFormed hheap.wellFormed
  have hmirror := hplace.mirrors fun _ => hheap.closed.within_of_reaches hroot
  exact ⟨_, hmirror, hgraph.nodup_keys, fun id _ _ => (w.atNode id).get?_eq_some_iff hgraph,
    fun id => (w.atNode id).atIndex?_members hgraph, fun id => (w.atNode id).reference?_isSome_iff hgraph,
    fun address s hr => hmirror.reference?_eq_some_iff hheap.wellFormed hr⟩

/-- An array that holds one object twice; the object refers to itself and leads back to the array. -/
def knottedHeap : Heap :=
  let heap := (Heap.empty.newArray []).2
  let heap := (heap.newObject [("up", .cell 0), (referenceKey, .string "#/0")]).2
  (heap.push (.cell 0) (.cell 1)).push (.cell 0) (.cell 1)

theorem built_knottedHeap : knottedHeap.Built :=
  .push (.push (.newObject (.newArray .empty (by decide)) (by decide)) (by decide)) (by decide)

theorem transform_mirrors_knottedHeap :
    knottedHeap.Built ∧ (Item.cell 0).Within knottedHeap ∧
    ∃ w f, Value.transform 7 knottedHeap (.cell 0) = .ok w ∧ w.Mirrors knottedHeap (.cell 0) f ∧
      (w.atNode (f 1)).reference? = some "#/0" := by
  have hroot : (Item.cell 0).Within knottedHeap := by decide
  obtain ⟨-, -, -, hcopy⟩ := transform_mirrors built_knottedHeap hroot 7
  have hok : (Value.transform 7 knottedHeap (.cell 0)).isOk = true := by decide +kernel
  cases hresult : Value.transform 7 knottedHeap (.cell 0) with
  | error kind =>
    rw [hresult] at hok
    cases hok
  | ok w =>
    obtain ⟨f, hmirror, -, -, -, -, hreference⟩ := hcopy w hresult
    have hcell : knottedHeap.cells[0]? = some (.array [.cell 1, .cell 1]) := rfl
    have hr : knottedHeap.Reaches (.cell 0) (.cell 1) := .item .root hcell List.mem_cons_self
    exact ⟨built_knottedHeap, hroot, w, f, rfl, hmirror, (hreference 1 "#/0" hr).mpr
      ⟨[("up", .cell 0), (referenceKey, .string "#/0")], rfl, by simp⟩⟩

end JsonSchema
