import JsonSchema.Proofs.Mirror

/-!
The tree of a value. `Value.toItem` gives a new cell to every array and object as it meets them and fills the cells
later; the value mirrors the tree that comes out (`Value.toItem_mirrors`), and the cells that were there before stay as
they are.

The invariant (`Rebuilding.Inv`) is the one of a transformation the other way round: a registered node is pending, is
the one whose children are being looked at, or its cell is filled.
-/

namespace JsonSchema

/-- The references of a graph are its objects that hold a string under the reserved name. -/
structure Graph.Proper (g : Graph) : Prop extends g.WellFormed where
  object : ∀ {id members child s}, g.node id = .object members → members.lookup referenceKey = some child →
    g.node child ≠ .string s

namespace Rebuilding

variable {g : Graph} {root id a : Nat} {old : Heap} {busy : Option Nat} {r r' r'' : Rebuilding} {item : Item}

/-! ### The invariant -/

/-- The item stands for the node: a scalar is copied, an array or object has its cell. -/
def Holds (g : Graph) (r : Rebuilding) : Item → Nat → Prop
  | .cell a, id => r.known[id]? = some (some a)
  | item, id => item.scalar? = some (g.node id)

/-- What holds of a tree under construction while the node `busy` is being looked at. -/
structure Inv (g : Graph) (root : Nat) (old : Heap) (busy : Option Nat) (r : Rebuilding) : Prop where
  size_known : r.known.size = g.nodes.size
  old_size : old.size ≤ r.heap.size
  old_cells : ∀ {a}, a < old.size → r.heap.cells[a]? = old.cells[a]?
  new : ∀ {id a : Nat}, r.known[id]? = some (some a) → old.size ≤ a ∧ a < r.heap.size
  known_inj : ∀ {id n a : Nat}, r.known[id]? = some (some a) → r.known[n]? = some (some a) → id = n
  composite : ∀ {id a : Nat}, r.known[id]? = some (some a) → (g.node id).isComposite = true
  known_of_pending : ∀ {a id}, (a, id) ∈ r.pending → r.known[id]? = some (some a)
  filled : ∀ {id a : Nat}, r.known[id]? = some (some a) → (a, id) ∈ r.pending ∨ busy = some id ∨
    ∃ cell, r.heap.cells[a]? = some cell ∧ cell.Becomes (r.Holds g) (g.node id)
  reaches : ∀ {id a : Nat}, r.known[id]? = some (some a) → g.Reaches root id

/-- The nodes still to be registered or filled. -/
def work (r : Rebuilding) : Nat := r.known.count none + r.pending.length

/-- What looking at a node may change: cells are added, nodes registered. -/
structure Grows (r r' : Rebuilding) : Prop where
  cells : ∀ {a : Nat} {cell : Cell}, r.heap.cells[a]? = some cell → r'.heap.cells[a]? = some cell
  known : ∀ {id a : Nat}, r.known[id]? = some (some a) → r'.known[id]? = some (some a)
  size : r'.known.size = r.known.size
  work : r'.work = r.work

theorem Grows.refl (r : Rebuilding) : r.Grows r := ⟨id, id, rfl, rfl⟩

theorem Grows.trans (h : r.Grows r') (h' : r'.Grows r'') : r.Grows r'' :=
  ⟨fun hc => h'.cells (h.cells hc), fun hk => h'.known (h.known hk), h'.size.trans h.size, h'.work.trans h.work⟩

theorem Holds.mono (hknown : ∀ {id a : Nat}, r.known[id]? = some (some a) → r'.known[id]? = some (some a))
    (h : r.Holds g item id) : r'.Holds g item id := by
  cases item with
  | cell a => exact hknown h
  | _ => exact h

theorem holds_of_scalar (h : item.scalar? = some (g.node id)) : r.Holds g item id := by
  cases item with
  | cell a => cases h
  | _ => exact h

/-! ### Looking at a node -/

/-- The state after a new node is registered. -/
def enter (r : Rebuilding) (id : Nat) (blank : Cell) : Rebuilding :=
  ⟨⟨r.heap.cells.push blank⟩, r.known.setIfInBounds id (some r.heap.size), (r.heap.size, id) :: r.pending⟩

theorem register_of_known (hk : r.known[id]? = some (some a)) (blank : Cell) : r.register id blank = (.cell a, r) := by
  rw [register, hk]

theorem register_of_new (hk : r.known[id]? = some none) (blank : Cell) :
    r.register id blank = (.cell r.heap.size, r.enter id blank) := by
  rw [register, hk]
  rfl

/-- A scalar is copied, any other node is registered with a blank cell. -/
theorem item_cases (g : Graph) (r : Rebuilding) (id : Nat) :
    (∃ i : Item, i.scalar? = some (g.node id) ∧ Rebuilding.item g r id = (i, r)) ∨
    (g.node id).isComposite = true ∧ ∃ blank, Rebuilding.item g r id = r.register id blank := by
  unfold Rebuilding.item
  cases hn : g.node id with
  | null => exact .inl ⟨.null, rfl, rfl⟩
  | boolean b => exact .inl ⟨.boolean b, rfl, rfl⟩
  | integer i => exact .inl ⟨.integer i, rfl, rfl⟩
  | number x => exact .inl ⟨.number x, rfl, rfl⟩
  | string s => exact .inl ⟨.string s, rfl, rfl⟩
  | array | object | reference => exact .inr ⟨rfl, _, rfl⟩

theorem known_enter (hk : r.known[id]? = some none) (blank : Cell) (n : Nat) :
    (r.enter id blank).known[n]? = if n = id then some (some r.heap.size) else r.known[n]? :=
  getElem?_register hk r.heap.size n

theorem cells_enter (r : Rebuilding) (id : Nat) (blank : Cell) (ha : a < r.heap.size) :
    (r.enter id blank).heap.cells[a]? = r.heap.cells[a]? := by
  rw [enter, Array.getElem?_push_lt ha, Array.getElem?_eq_getElem ha]

theorem size_enter (r : Rebuilding) (id : Nat) (blank : Cell) : (r.enter id blank).heap.size = r.heap.size + 1 :=
  Array.size_push _

theorem grows_enter (hk : r.known[id]? = some none) (blank : Cell) : r.Grows (r.enter id blank) := by
  refine ⟨fun {a cell} hc => ?_, fun {n a} hn => ?_, by simp [enter], ?_⟩
  · rw [cells_enter r id blank (Array.getElem?_eq_some_iff.mp hc).1, hc]
  · rw [known_enter hk, if_neg (by rintro rfl; simp [hk] at hn)]
    exact hn
  · have hcount := count_register hk r.heap.size
    simp only [work, enter, List.length_cons]
    omega

theorem Inv.grow (h : r.Inv g root old busy) (hg : r.Grows r') (hk : r.known[id]? = some (some a)) :
    (a, id) ∈ r.pending ∨ busy = some id ∨
      ∃ cell, r'.heap.cells[a]? = some cell ∧ cell.Becomes (r'.Holds g) (g.node id) := by
  rcases h.filled hk with hp | hb | ⟨cell, hc, hbec⟩
  · exact .inl hp
  · exact .inr (.inl hb)
  · exact .inr (.inr ⟨cell, hg.cells hc, hbec.mono fun _ _ => Holds.mono hg.known⟩)

theorem Inv.enter (h : r.Inv g root old busy) (hk : r.known[id]? = some none)
    (hcomposite : (g.node id).isComposite = true) (hr : g.Reaches root id) (blank : Cell) :
    (r.enter id blank).Inv g root old busy := by
  have hg := grows_enter hk blank
  have hsize := size_enter r id blank
  -- the new cell has an address that none had before
  have hnew : ∀ {n : Nat}, r.known[n]? ≠ some (some r.heap.size) := fun hn => Nat.lt_irrefl _ (h.new hn).2
  refine ⟨hg.size.trans h.size_known, by rw [hsize]; exact Nat.le_succ_of_le h.old_size, fun ha => ?_,
    fun {n a} hn => ?_, fun {n m a} hn hm => ?_, fun {n a} hn => ?_, fun {a n} hp => ?_, fun {n a} hn => ?_,
    fun {n a} hn => ?_⟩
  · rw [cells_enter r id blank (Nat.lt_of_lt_of_le ha h.old_size)]
    exact h.old_cells ha
  · rw [known_enter hk] at hn
    rw [hsize]
    split at hn
    · rw [← Option.some.inj (Option.some.inj hn)]
      exact ⟨h.old_size, Nat.lt_succ_self _⟩
    · exact ⟨(h.new hn).1, Nat.lt_succ_of_lt (h.new hn).2⟩
  · rw [known_enter hk] at hn hm
    split at hn <;> split at hm
    · simp_all
    · exact absurd (hn ▸ hm) hnew
    · exact absurd (hm ▸ hn) hnew
    · exact h.known_inj hn hm
  · rw [known_enter hk] at hn
    split at hn
    · next heq => exact heq ▸ hcomposite
    · exact h.composite hn
  · rcases List.mem_cons.mp hp with heq | hp
    · cases heq
      rw [known_enter hk, if_pos rfl]
    · exact hg.known (h.known_of_pending hp)
  · rw [known_enter hk] at hn
    split at hn
    · next heq => exact .inl (by rw [heq, ← Option.some.inj (Option.some.inj hn)]; exact List.mem_cons_self)
    · exact (h.grow hg hn).imp_left fun hp => List.mem_cons_of_mem _ hp
  · rw [known_enter hk] at hn
    split at hn
    · next heq => exact heq ▸ hr
    · exact h.reaches hn

/-- Looking at a node keeps the invariant and gives an item that stands for it. -/
theorem item_spec (h : r.Inv g root old busy) (hr : g.Reaches root id) :
    (Rebuilding.item g r id).2.Inv g root old busy ∧ r.Grows (Rebuilding.item g r id).2 ∧
      (Rebuilding.item g r id).2.Holds g (Rebuilding.item g r id).1 id := by
  rcases item_cases g r id with ⟨i, hi, heq⟩ | ⟨hcomposite, blank, heq⟩
  · rw [heq]
    exact ⟨h, .refl r, holds_of_scalar hi⟩
  · rw [heq]
    have hlt : id < r.known.size := by
      rw [h.size_known]
      by_contra hle
      rw [Graph.node, Array.getElem?_eq_none (Nat.le_of_not_lt hle)] at hcomposite
      cases hcomposite
    cases hk : r.known[id]? with
    | none =>
      rw [Array.getElem?_eq_none_iff] at hk
      omega
    | some entry =>
      cases entry with
      | none =>
        rw [register_of_new hk]
        exact ⟨h.enter hk hcomposite hr blank, grows_enter hk blank, by simp [Holds, known_enter hk]⟩
      | some a =>
        rw [register_of_known hk]
        exact ⟨h, .refl r, hk⟩

theorem items_spec {ids : List Nat} (h : r.Inv g root old busy) (hr : ∀ id ∈ ids, g.Reaches root id) :
    (items g r ids).2.Inv g root old busy ∧ r.Grows (items g r ids).2 ∧
      List.Forall₂ ((items g r ids).2.Holds g) (items g r ids).1 ids := by
  induction ids generalizing r with
  | nil => exact ⟨h, .refl r, .nil⟩
  | cons id ids ih =>
    rw [List.forall_mem_cons] at hr
    obtain ⟨h₁, hg₁, hfirst⟩ := item_spec h hr.1
    obtain ⟨h₂, hg₂, hothers⟩ := ih h₁ hr.2
    exact ⟨h₂, hg₁.trans hg₂, .cons (hfirst.mono hg₂.known) hothers⟩

/-! ### Filling a cell -/

/-- The cell that is the image of the node is put in the place of the blank one. -/
theorem Inv.close (h : r.Inv g root old (some id)) (hk : r.known[id]? = some (some a)) {cell : Cell}
    (hb : cell.Becomes (r.Holds g) (g.node id)) :
    ({ r with heap := r.heap.put a cell } : Rebuilding).Inv g root old none := by
  have hsize : (r.heap.put a cell).size = r.heap.size := Array.size_setIfInBounds
  have hcells := r.heap.cells_put (h.new hk).2 cell
  have hmono : ∀ item n, r.Holds g item n → ({ r with heap := r.heap.put a cell } : Rebuilding).Holds g item n :=
    fun item n hi => by cases item <;> exact hi
  refine ⟨h.size_known, hsize ▸ h.old_size, fun {b} hb => ?_, fun hn => hsize ▸ h.new hn, h.known_inj, h.composite,
    h.known_of_pending, fun {n b} hn => ?_, h.reaches⟩
  · rw [hcells, if_neg (Nat.ne_of_lt (Nat.lt_of_lt_of_le hb (h.new hk).1))]
    exact h.old_cells hb
  · by_cases heq : n = id
    · subst heq
      cases Option.some.inj (Option.some.inj (hn.symm.trans hk))
      exact .inr (.inr ⟨cell, by rw [hcells, if_pos rfl], hb.mono hmono⟩)
    · rcases h.filled hn with hp | hbusy | ⟨other, hc, hbec⟩
      · exact .inl hp
      · exact absurd (Option.some.inj hbusy).symm heq
      · have hne : b ≠ a := fun hba => heq (h.known_inj hn (hba ▸ hk))
        exact .inr (.inr ⟨other, by rw [hcells, if_neg hne]; exact hc, hbec.mono hmono⟩)

/-- The strings among the nodes are the strings among the items. -/
theorem Inv.string_iff (h : r.Inv g root old busy) (hi : r.Holds g item id) {s : String} :
    g.node id = .string s ↔ item = .string s := by
  constructor
  · intro hn
    cases item with
    | cell a =>
      have hcomposite := h.composite hi
      rw [hn] at hcomposite
      cases hcomposite
    | string s' =>
      cases Eq.trans (b := some (g.node id)) hi (congrArg some hn)
      rfl
    | _ => cases Eq.trans (b := some (g.node id)) hi (congrArg some hn)
  · rintro rfl
    exact (Option.some.inj hi).symm

/-- The members of an object or reference, with the items of their nodes. -/
theorem Inv.becomes_members (h : r.Inv g root old busy) (hg : g.Proper) {members : List (String × Nat)}
    {items : List Item} (hn : g.node id = .object members ∨ g.node id = .reference members)
    (hf : List.Forall₂ (r.Holds g) items (members.map (·.2))) :
    (Cell.object ((members.map (·.1)).zip items)).Becomes (r.Holds g) (g.node id) := by
  have hmembers : List.Forall₂ (fun m n => m.1 = n.1 ∧ r.Holds g m.2 n.2) ((members.map (·.1)).zip items) members :=
    (forall₂_zip_keys hf.flip).flip.imp fun _ _ hm => ⟨hm.1.symm, hm.2⟩
  have hlookup := lookup_rel hmembers referenceKey
  refine ⟨members, ?_, hmembers⟩
  rcases hn with hn | hn
  · rw [hn, if_neg]
    intro href
    obtain ⟨s, hs⟩ := Cell.isReference_object.mp href
    rw [hs] at hlookup
    cases hchild : members.lookup referenceKey with
    | none =>
      rw [hchild] at hlookup
      cases hlookup
    | some child =>
      rw [hchild, Option.rel_some_some] at hlookup
      exact hg.object hn hchild ((h.string_iff hlookup).mpr rfl)
  · obtain ⟨child, s, hchild, hs⟩ := hg.reference hn
    rw [hn, if_pos]
    rw [hchild] at hlookup
    cases hitem : ((members.map (·.1)).zip items).lookup referenceKey with
    | none =>
      rw [hitem] at hlookup
      cases hlookup
    | some item =>
      rw [hitem, Option.rel_some_some] at hlookup
      exact Cell.isReference_object.mpr ⟨s, hitem.trans (congrArg some ((h.string_iff hlookup).mp hs))⟩

/-- Filling the cell of a node keeps the invariant, and whatever stood for a node. -/
theorem fill_spec (h : r.Inv g root old (some id)) (hg : g.Proper) (hk : r.known[id]? = some (some a)) :
    (r.fill g a (g.node id)).Inv g root old none ∧ (r.fill g a (g.node id)).work = r.work ∧
      ∀ item n, r.Holds g item n → (r.fill g a (g.node id)).Holds g item n := by
  have hchildren : ∀ child ∈ (g.node id).children, g.Reaches root child := fun child hc => .child (h.reaches hk) hc
  obtain ⟨h', hgrows, hf⟩ := items_spec h hchildren
  have hk' := hgrows.known hk
  have hmono : ∀ cell item n, r.Holds g item n → ({ (items g r (g.node id).children).2 with
      heap := (items g r (g.node id).children).2.heap.put a cell } : Rebuilding).Holds g item n := by
    intro cell item n hi
    have hi := hi.mono hgrows.known
    cases item <;> exact hi
  have hcomposite := h.composite hk
  unfold fill
  cases hn : g.node id with
  | array ids =>
    simp only [hn] at h' hgrows hf hk' hmono ⊢
    exact ⟨h'.close hk' ⟨ids, hn, hf⟩, hgrows.work, hmono _⟩
  | object members =>
    simp only [hn] at h' hgrows hf hk' hmono ⊢
    exact ⟨h'.close hk' (h'.becomes_members hg (.inl hn) hf), hgrows.work, hmono _⟩
  | reference members =>
    simp only [hn] at h' hgrows hf hk' hmono ⊢
    exact ⟨h'.close hk' (h'.becomes_members hg (.inr hn) hf), hgrows.work, hmono _⟩
  | _ =>
    rw [hn] at hcomposite
    cases hcomposite

/-! ### Emptying the list -/

/-- The first pending node becomes the one that is looked at. -/
theorem Inv.pop (h : r.Inv g root old none) {rest : List (Nat × Nat)} (hp : r.pending = (a, id) :: rest) :
    ({ r with pending := rest } : Rebuilding).Inv g root old (some id) := by
  refine ⟨h.size_known, h.old_size, h.old_cells, h.new, h.known_inj, h.composite, fun hm => h.known_of_pending ?_,
    fun {n b} hk => ?_, h.reaches⟩
  · rw [hp]
    exact List.mem_cons_of_mem _ hm
  · rcases h.filled hk with hm | hb | hf
    · rw [hp] at hm
      rcases List.mem_cons.mp hm with heq | hm
      · cases heq
        exact .inr (.inl rfl)
      · exact .inl hm
    · cases hb
    · exact .inr (.inr hf)

/-- What the loop comes to if it comes to an end: the cell of the first pending node is filled, until none is left. -/
inductive Drains (g : Graph) : Rebuilding → Rebuilding → Prop
  | done {r : Rebuilding} : r.pending = [] → Drains g r r
  | filled {r r' : Rebuilding} {address id : Nat} {rest : List (Nat × Nat)} : r.pending = (address, id) :: rest →
      Drains g (({ r with pending := rest } : Rebuilding).fill g address (g.node id)) r' → Drains g r r'

theorem Drains.unique (h : Drains g r r') (h' : Drains g r r'') : r' = r'' := by
  induction h with
  | done hp => cases h' <;> simp_all
  | filled hp _ ih =>
    cases h' with
    | done hp' => simp_all
    | filled hp' hrest => exact ih (by simp_all)

/-- With fuel for all that is left to do, the list is emptied. -/
theorem drain_spec {fuel : Nat} (h : r.Inv g root old none) (hg : g.Proper) (hw : r.work ≤ fuel) :
    Drains g r (drain g fuel r) ∧ (drain g fuel r).Inv g root old none ∧ (drain g fuel r).pending = [] ∧
      ∀ item n, r.Holds g item n → (drain g fuel r).Holds g item n := by
  induction fuel generalizing r with
  | zero =>
    have hp : r.pending = [] := List.length_eq_zero_iff.mp (by unfold work at hw; omega)
    exact ⟨.done hp, h, hp, fun _ _ => id⟩
  | succ fuel ih =>
    rw [drain]
    split
    · next hp => exact ⟨.done hp, h, hp, fun _ _ => id⟩
    · next a id rest hp =>
      have hk : r.known[id]? = some (some a) := h.known_of_pending (by rw [hp]; exact List.mem_cons_self)
      obtain ⟨h₁, hw₁, hk₁⟩ := fill_spec (h.pop hp) hg hk
      have hpop : ({ r with pending := rest } : Rebuilding).work + 1 = r.work := by
        simp only [work, hp, List.length_cons]
        omega
      obtain ⟨hdrains, h₂, hp₂, hk₂⟩ := ih h₁ (by omega)
      refine ⟨.filled hp hdrains, h₂, hp₂, fun item n hn => hk₂ item n (hk₁ item n ?_)⟩
      cases item <;> exact hn

/-! ### The whole tree -/

/-- Nothing is registered yet. -/
def start (g : Graph) (old : Heap) : Rebuilding := ⟨old, Array.replicate g.nodes.size none, []⟩

theorem inv_start (g : Graph) (root : Nat) (old : Heap) : (start g old).Inv g root old none := by
  have hnone : ∀ {id a : Nat}, (start g old).known[id]? ≠ some (some a) := fun {id a} hk => by
    simp [start, Array.getElem?_replicate] at hk
  exact ⟨by simp [start], Nat.le_refl _, fun _ => rfl, fun hk => absurd hk hnone, fun hk => absurd hk hnone,
    fun hk => absurd hk hnone, fun hp => (by cases hp), fun hk => absurd hk hnone, fun hk => absurd hk hnone⟩

theorem work_start (g : Graph) (old : Heap) : (start g old).work = g.nodes.size := by
  simp [work, start]

/-- Once the list is empty, the cell of a node is its image. -/
theorem Inv.cell_of_known (h : r.Inv g root old none) (hp : r.pending = []) (hk : r.known[id]? = some (some a)) :
    ∃ cell, r.heap.cells[a]? = some cell ∧ cell.Becomes (r.Holds g) (g.node id) := by
  rcases h.filled hk with hm | hb | hf
  · rw [hp] at hm
    cases hm
  · cases hb
  · exact hf

/-- What can be reached from the root has an item that can be reached. -/
theorem Inv.exists_item (h : r.Inv g root old none) (hp : r.pending = []) {top : Item} (htop : r.Holds g top root)
    (hr : g.Reaches root id) : ∃ i, r.heap.Reaches top i ∧ r.Holds g i id := by
  induction hr with
  | root => exact ⟨top, .root, htop⟩
  | @child n child _ hc ih =>
    obtain ⟨i, hi, hhold⟩ := ih
    cases i with
    | cell a =>
      obtain ⟨cell, hcell, hbec⟩ := h.cell_of_known hp hhold
      obtain ⟨item, hitem, hholds⟩ := exists_left_of_forall₂ hbec.children hc
      exact ⟨item, .item hi hcell hitem, hholds⟩
    | _ =>
      rw [(Item.leaf_of_scalar? hhold).2] at hc
      cases hc

/-- What can be reached from the item of the root stands for what can be reached from the root. -/
theorem Inv.exists_node (h : r.Inv g root old none) (hp : r.pending = []) {top : Item} (htop : r.Holds g top root)
    (hr : r.heap.Reaches top item) : ∃ n, g.Reaches root n ∧ r.Holds g item n := by
  induction hr with
  | root => exact ⟨root, .root, htop⟩
  | @item a cell i _ hc hi ih =>
    obtain ⟨n, hn, hk⟩ := ih
    obtain ⟨cell', hc', hbec⟩ := h.cell_of_known hp hk
    cases hc.symm.trans hc'
    obtain ⟨child, hchild, hholds⟩ := exists_right_of_forall₂ hbec.children hi
    exact ⟨child, .child hn hchild, hholds⟩

/-- Once the list is empty, the value mirrors the tree. -/
theorem Inv.mirrors (h : r.Inv g root old none) (hp : r.pending = []) {top : Item} (htop : r.Holds g top root) :
    ∃ f, (Value.mk g root).Mirrors r.heap top f := by
  have horigin : ∀ a : Nat, ∃ id, ∀ n : Nat, r.known[n]? = some (some a) → n = id := by
    intro a
    by_cases hex : ∃ id : Nat, r.known[id]? = some (some a)
    · exact ⟨hex.choose, fun n hn => h.known_inj hn hex.choose_spec⟩
    · exact ⟨0, fun n hn => absurd ⟨n, hn⟩ hex⟩
  choose f hf using horigin
  have hplaced : ∀ item n, r.Holds g item n → item.Placed g f n := fun item n hi => by
    cases item with
    | cell a => exact hf a n hi
    | _ => exact hi
  have hknown : ∀ {a}, r.heap.Reaches top (.cell a) → g.Reaches root (f a) ∧ r.known[f a]? = some (some a) := by
    intro a ha
    obtain ⟨n, hn, hk⟩ := h.exists_node hp htop ha
    exact hf a n hk ▸ ⟨hn, hk⟩
  refine ⟨f, hplaced top root htop, ⟨fun a ha => ⟨(hknown ha).1, h.composite (hknown ha).2⟩, fun a ha b hb heq => ?_,
    fun id hid => ?_⟩, fun {a} ha => ?_⟩
  · have hka := (hknown ha).2
    rw [heq, (hknown hb).2] at hka
    exact (Option.some.inj (Option.some.inj hka)).symm
  · obtain ⟨i, hi, hhold⟩ := h.exists_item hp htop hid.1
    cases i with
    | cell a => exact ⟨a, hi, (hf a id hhold).symm⟩
    | _ =>
      have hleaf := (Item.leaf_of_scalar? hhold).1
      exact absurd hid.2 (by simp [hleaf])
  · obtain ⟨cell, hc, hbec⟩ := h.cell_of_known hp (hknown ha).2
    exact ⟨cell, hc, hbec.mono hplaced⟩

end Rebuilding

namespace Value

variable {v : Value} {heap : Heap}

/-- The outcome of rebuilding the tree of a value whose loop runs until nothing is pending. -/
def Rebuilds (v : Value) (heap : Heap) (outcome : Item × Heap) : Prop :=
  ∃ r, (Rebuilding.item v.graph (.start v.graph heap) v.id).2.Drains v.graph r ∧
    outcome = ((Rebuilding.item v.graph (.start v.graph heap) v.id).1, r.heap)

/-- The loop comes to an end, and there is one outcome: the cells that were there stay as they are, and the value
mirrors the tree of new cells. -/
theorem toItem_spec (hv : v.graph.Proper) (heap : Heap) :
    (∀ outcome, v.Rebuilds heap outcome ↔ outcome = v.toItem heap) ∧
    (∀ a < heap.size, (v.toItem heap).2.cells[a]? = heap.cells[a]?) ∧
    ∃ f, v.Mirrors (v.toItem heap).2 (v.toItem heap).1 f := by
  obtain ⟨h, hgrows, htop⟩ := Rebuilding.item_spec (Rebuilding.inv_start v.graph v.id heap) .root
  have hw := Nat.le_of_eq (hgrows.work.trans (Rebuilding.work_start v.graph heap))
  obtain ⟨hdrains, h', hp, hholds⟩ := Rebuilding.drain_spec h hv hw
  refine ⟨fun outcome => ⟨?_, fun heq => ⟨_, hdrains, heq⟩⟩, fun a ha => h'.old_cells ha,
    h'.mirrors hp (hholds _ _ htop)⟩
  rintro ⟨r, hr, heq⟩
  rw [heq, hr.unique hdrains]
  rfl

end Value

end JsonSchema
