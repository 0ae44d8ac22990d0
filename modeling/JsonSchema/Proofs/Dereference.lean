import JsonSchema.Proofs.Dereference.Keeping
import Mathlib.Data.Set.Function

/-!
Dereferencing is exact. The main theorem (`dereference_exact`) says that an error comes out exactly when a reference
that is met leads nowhere, and that otherwise the new value is a copy (`Resolver.Dereferenced`): the arrays and
objects that are met and those that can be reached in the new value are in one-to-one correspondence, and every place
holds the image of what stands there, or of what that leads to if it is a reference.

References are resolved by the documents at hand when the work is done, to which nothing but loaded documents was
added. Whatever comes out is a copy, however many documents there are (`Dereferencing.build_eq_ok`); that something comes
out or a reference leads nowhere is due to a loader with finitely many documents (`Dereferencing.build_cases`).
-/

namespace JsonSchema

/-! ### Copies -/

namespace Resolver

/-- A node is the image of a value, where `f` gives the nodes of arrays and objects: a scalar is copied, and a
reference has the image of what it leads to. -/
def Image (r : Resolver) (s : Store) (g : Graph) (f : Nat × Nat → Nat) (v : Value) (d : Document) (id : Nat) : Prop :=
  ∃ final, Final (r.Leads s) v d final ∧ if final.isPlain then id = f final.identity else g.node id = final.node

/-- A value is the data of a document without references: `f` is a one-to-one correspondence between the arrays and
objects that are met and the composite nodes of the value, under which elements, keys and their order stay. -/
structure Dereferenced (r : Resolver) (document : Document) (s : Store) (w : Value) (f : Nat × Nat → Nat) : Prop where
  root : r.Image s w.graph f document.root document w.id
  bijective : Set.BijOn f {i | ∃ v d, Met (r.Leads s) document v d ∧ v.isPlain = true ∧ i = v.identity}
    {id | w.graph.Reaches w.id id ∧ (w.graph.node id).isComposite = true}
  array : ∀ {v d ids}, Met (r.Leads s) document v d → v.node = .array ids →
    ∃ ids', w.graph.node (f v.identity) = .array ids' ∧
      List.Forall₂ (fun child id => r.Image s w.graph f child d id) v.elements ids'
  object : ∀ {v d ms}, Met (r.Leads s) document v d → v.node = .object ms →
    ∃ ms', w.graph.node (f v.identity) = .ofMembers w.graph.nodes ms' ∧
      List.Forall₂ (fun m m' => m.1 = m'.1 ∧ r.Image s w.graph f m.2 d m'.2) v.members ms'

end Resolver

/-! ### The finished tree -/

namespace Dereferencing

variable {r : Resolver} {document d : Document} {n a : Nat} {busy : Option Nat} {x : Dereferencing} {v final : Value}
  {i root : Item} {after : Store} {w : Value} {place : Nat → Option Nat}

/-- What stands in the place of a value that is met is met itself, and no reference. -/
theorem Inv.met_final (h : Inv r document busy x) (hm : Met (r.Settled x.store) document v d)
    (hf : Final (r.Settled x.store) v d final) :
    ∃ e, Met (r.Settled x.store) document final e ∧ final.kind ≠ .reference := by
  unfold Final at hf
  split at hf
  · next hr =>
    obtain ⟨t, ht, rfl⟩ := hf
    have hmt : Met (r.Settled x.store) document t.value t.document := .target hm hr ht
    obtain ⟨hat, ho⟩ := Resolver.atHand_of_met hmt
    refine ⟨t.document, hmt, Value.kind_of_reference? ?_ (Resolver.resolve_found ht).2⟩
    rw [ho.graph]
    exact h.coherent.wellFormed _ hat
  · next hr =>
    subst hf
    exact ⟨d, hm, hr⟩

/-- When nothing is pending, the cell of an array or object is a copy. -/
theorem Inv.filled (h : Inv r document none x) (hnil : x.pending = []) (hm : Met (r.Settled x.store) document v d)
    (hp : v.isPlain = true) (hk : x.known.lookup v.identity = some i) :
    ∃ a cell, i = .cell a ∧ x.heap.cells[a]? = some cell ∧ Copies (Stands r x · d ·) v cell := by
  obtain ⟨a, rfl, hpend | hbusy | ⟨cell, hc, hcopy⟩⟩ := h.plain hm hp hk
  · simp [hnil] at hpend
  · cases hbusy
  · exact ⟨a, cell, rfl, hc, hcopy⟩

theorem Stands.lookup (hs : Stands r x v d i) (hp : v.isPlain = true) : x.known.lookup v.identity = some i := by
  obtain ⟨final, hf, hi⟩ := hs
  rw [Final, if_neg (Value.kind_ne_of_isPlain hp)] at hf
  subst hf
  rwa [Holds, if_pos hp] at hi

theorem isPlain_of_isArray (h : v.isArray = true) : v.isPlain = true := by
  unfold Value.isArray at h
  cases hn : v.node <;> simp [hn] at h
  simp [Value.isPlain, hn]

theorem isPlain_of_member {m : String × Value} (hr : v.kind ≠ .reference) (hc : m ∈ v.members) :
    v.isPlain = true := by
  unfold Value.members at hc
  cases hn : v.node with
  | reference members => exact absurd (Value.kind_eq_reference.2 ⟨members, hn⟩) hr
  | object members => simp [Value.isPlain, hn]
  | _ => simp [hn, Node.members] at hc

/-- Everything that is met has an item that can be reached in the tree. -/
theorem Inv.covers (h : Inv r document none x) (hnil : x.pending = [])
    (hroot : Stands r x document.root document root) (hafter : after.cache = x.store.cache)
    (hm : Met (r.Leads after) document v d) :
    Met (r.Settled x.store) document v d ∧ ∃ i, Stands r x v d i ∧ x.heap.Reaches root i := by
  induction hm with
  | root => exact ⟨.root, root, hroot, .root⟩
  | @element v child d _ hc ih =>
    obtain ⟨hm, i, hs, hreach⟩ := ih
    have harray := Value.isArray_of_mem_elements hc
    have hp := isPlain_of_isArray harray
    obtain ⟨a, cell, rfl, hcell, hcopy⟩ := h.filled hnil hm hp (hs.lookup hp)
    refine ⟨.element hm hc, ?_⟩
    cases cell with
    | object members => exact absurd hcopy.1 (by simp [harray])
    | array items =>
      obtain ⟨j, hj, hst⟩ := exists_right_of_forall₂ hcopy.2 hc
      exact ⟨j, hst, .item hreach hcell hj⟩
  | @member v child d key _ hr hc ih =>
    obtain ⟨hm, i, hs, hreach⟩ := ih
    have harray := Value.not_isArray_of_mem_members hc
    have hp := isPlain_of_member hr hc
    obtain ⟨a, cell, rfl, hcell, hcopy⟩ := h.filled hnil hm hp (hs.lookup hp)
    refine ⟨.member hm hr hc, ?_⟩
    cases cell with
    | array items => exact absurd hcopy.1 (by simp [harray])
    | object members =>
      obtain ⟨m, hmem, -, hst⟩ := exists_right_of_forall₂ hcopy.2 hc
      exact ⟨m.2, hst, .item hreach hcell (List.mem_map_of_mem hmem)⟩
  | @target v d t _ hr hleads ih =>
    obtain ⟨hm, i, ⟨final, hf, hi⟩, hreach⟩ := ih
    have hfinal := hf
    rw [Final, if_pos hr] at hf
    obtain ⟨t', ht', rfl⟩ := hf
    -- the reference was resolved before, and leads to the same place now
    have hsame : r.resolve v d after = (.ok t', after) := ht'.mono (hafter ▸ .refl _)
    rw [Resolver.Leads, hsame] at hleads
    cases hleads
    obtain ⟨-, -, hrt⟩ := h.met_final hm hfinal
    exact ⟨.target hm hr ht', i, ⟨t.value, by rw [Final, if_neg hrt], hi⟩, hreach⟩

/-- Every reference that is met was resolved. -/
theorem Inv.exists_settled (h : Inv r document none x) (hnil : x.pending = [])
    (hroot : Stands r x document.root document root) (hafter : after.cache = x.store.cache)
    (hm : Met (r.Leads after) document v d) (hr : v.kind = .reference) :
    ∃ t, r.Settled after v d t ∧ t.value.kind ≠ .reference := by
  obtain ⟨hm, i, ⟨final, hf, -⟩, -⟩ := h.covers hnil hroot hafter hm
  obtain ⟨-, -, hfinal⟩ := h.met_final hm hf
  rw [Final, if_pos hr] at hf
  obtain ⟨t, ht, rfl⟩ := hf
  exact ⟨t, ht.mono (hafter ▸ .refl _), hfinal⟩

/-- Every item that can be reached in the tree stands for something that is met. -/
theorem Inv.stands_of_reaches (h : Inv r document none x) (hnil : x.pending = [])
    (hroot : Stands r x document.root document root) (hr : x.heap.Reaches root i) :
    ∃ v d, Met (r.Settled x.store) document v d ∧ Stands r x v d i := by
  induction hr with
  | root => exact ⟨_, _, .root, hroot⟩
  | @item a cell j _ hc hj _ =>
    obtain ⟨v, d, hm, hp, hk⟩ := h.owner (Array.getElem?_eq_some_iff.mp hc).1
    obtain ⟨b, cell', heq, hc', hcopy⟩ := h.filled hnil hm hp hk
    cases heq
    cases hc.symm.trans hc'
    cases cell with
    | array items =>
      obtain ⟨child, hchild, hst⟩ := exists_left_of_forall₂ hcopy.2 hj
      exact ⟨child, d, .element hm hchild, hst⟩
    | object members =>
      obtain ⟨m, hmem, rfl⟩ := List.mem_map.mp hj
      obtain ⟨child, hchild, -, hst⟩ := exists_left_of_forall₂ hcopy.2 hmem
      exact ⟨child.2, d, hm.ofMember (Value.kind_ne_of_isPlain hp) hchild, hst⟩

/-- The tree holds only what values hold. -/
theorem Inv.unsupported?_eq_none (h : Inv r document none x) (hm : Met (r.Settled x.store) document v d)
    (hs : Stands r x v d i) : i.unsupported? = none := by
  obtain ⟨final, hf, hi⟩ := hs
  obtain ⟨e, hm', -⟩ := h.met_final hm hf
  unfold Holds at hi
  split at hi
  · next hp =>
    obtain ⟨a, rfl, -⟩ := h.plain hm' hp hi
    rfl
  · cases i <;> first | rfl | cases hi

/-- The node of an array or object, where `place` gives the nodes of cells. -/
def nodeOf (x : Dereferencing) (place : Nat → Option Nat) (k : Nat × Nat) : Nat :=
  match x.known.lookup k with
  | some (.cell a) => (place a).getD 0
  | _ => 0

/-- The cell of an array or object that is met has a node, and this is the one that belongs to it. -/
theorem Inv.place_eq (h : Inv r document none x) (hw : w.Represents x.heap root place)
    (hm : Met (r.Settled x.store) document v d) (hp : v.isPlain = true)
    (hk : x.known.lookup v.identity = some (.cell a)) (hr : x.heap.Reaches root (.cell a)) :
    place a = some (x.nodeOf place v.identity) := by
  obtain ⟨id, hid⟩ := (hw.place_iff a).mpr ⟨hr, h.cell_lt hm hp hk⟩
  simp only [nodeOf, hk, hid, Option.getD_some]

/-- A node for the item of a value is the image of the value. -/
theorem Inv.image_of_at (h : Inv r document none x) (hw : w.Represents x.heap root place)
    (hafter : after.cache = x.store.cache) (hm : Met (r.Settled x.store) document v d) (hs : Stands r x v d i)
    (hr : x.heap.Reaches root i) {id : Nat} (hat : i.At w.graph place id) :
    r.Image after w.graph (x.nodeOf place) v d id := by
  obtain ⟨final, hf, hi⟩ := hs
  obtain ⟨e, hm', -⟩ := h.met_final hm hf
  refine ⟨final, Final.mono (fun t ht => ht.leads hafter) hf, ?_⟩
  unfold Holds at hi
  split
  · next hp =>
    rw [if_pos hp] at hi
    obtain ⟨a, rfl, -⟩ := h.plain hm' hp hi
    have hplace := hw.place_of_reaches hr (h.cell_lt hm' hp hi) hat
    exact (Option.some.inj ((h.place_eq hw hm' hp hi hr).symm.trans hplace)).symm
  · next hp =>
    rw [if_neg hp] at hi
    cases i with
    | cell a => cases hi
    | _ => exact Option.some.inj (hat.symm.trans hi)

end Dereferencing

namespace Dereferencing

variable {r : Resolver} {document d : Document} {n : Nat} {x : Dereferencing} {v : Value} {s : Store} {root : Item}
  {after : Store} {w : Value} {place : Nat → Option Nat}

/-- The value of the finished tree is the data of the document without references. -/
theorem Inv.dereferenced (h : Inv r document none x) (hnil : x.pending = [])
    (hroot : Stands r x document.root document root) (hafter : after.cache = x.store.cache)
    (hw : w.Represents x.heap root place) : r.Dereferenced document after w (x.nodeOf place) := by
  have hcovers : ∀ {v d}, Met (r.Leads after) document v d → Met (r.Settled x.store) document v d ∧
      ∃ i, Stands r x v d i ∧ x.heap.Reaches root i := fun hm => h.covers hnil hroot hafter hm
  -- an array or object that is met has a filled cell, whose node is what the cell becomes
  have hplain : ∀ {v d}, Met (r.Leads after) document v d → v.isPlain = true →
      ∃ a cell, x.known.lookup v.identity = some (.cell a) ∧ x.heap.Reaches root (.cell a) ∧
        x.heap.cells[a]? = some cell ∧ Copies (Stands r x · d ·) v cell ∧
        place a = some (x.nodeOf place v.identity) ∧
        cell.Becomes (Item.At w.graph place) (w.graph.node (x.nodeOf place v.identity)) := by
    intro v d hm hp
    obtain ⟨hm, i, hs, hr⟩ := hcovers hm
    obtain ⟨a, cell, rfl, hc, hcopy⟩ := h.filled hnil hm hp (hs.lookup hp)
    have hplace := h.place_eq hw hm hp (hs.lookup hp) hr
    obtain ⟨cell', hc', hbec⟩ := hw.becomes hplace
    cases hc.symm.trans hc'
    exact ⟨a, cell, hs.lookup hp, hr, hc, hcopy, hplace, hbec⟩
  refine ⟨h.image_of_at hw hafter .root hroot .root hw.root_at, ⟨?_, ?_, ?_⟩, fun {v d ids} hm hn => ?_,
    fun {v d ms} hm hn => ?_⟩
  · rintro k ⟨v, d, hm, hp, rfl⟩
    obtain ⟨a, cell, hk, hr, hc, -, hplace, hbec⟩ := hplain hm hp
    refine ⟨?_, Cell.isComposite_of_becomes hbec⟩
    obtain ⟨id, hid, hat⟩ := hw.exists_node hr
    have hsame := hw.place_of_reaches hr (Array.getElem?_eq_some_iff.mp hc).1 hat
    rw [hplace] at hsame
    rw [Option.some.inj hsame]
    exact hid
  · rintro k ⟨v, d, hm, hp, rfl⟩ k' ⟨v', d', hm', hp', rfl⟩ heq
    obtain ⟨a, cell, hk, -, -, -, hplace, -⟩ := hplain hm hp
    obtain ⟨a', cell', hk', -, -, -, hplace', -⟩ := hplain hm' hp'
    rw [heq] at hplace
    cases hw.place_inj hplace hplace'
    exact h.inj (hcovers hm).1 hp (hcovers hm').1 hp' hk hk'
  · rintro id ⟨-, hcomp⟩
    obtain ⟨a, ha⟩ := hw.place_of_composite hcomp
    obtain ⟨hr, hlt⟩ := (hw.place_iff a).mp ⟨id, ha⟩
    obtain ⟨v, d, hm, hp, hk⟩ := h.owner hlt
    have hleads : Met (r.Leads after) document v d := hm.mono fun v d t _ ht => ht.leads hafter
    exact ⟨v.identity, ⟨v, d, hleads, hp, rfl⟩, Option.some.inj ((h.place_eq hw hm hp hk hr).symm.trans ha)⟩
  · obtain ⟨a, cell, hk, hr, hc, hcopy, -, hbec⟩ := hplain hm (by simp [Value.isPlain, hn])
    cases cell with
    | object members => exact absurd hcopy.1 (by simp [Value.isArray, hn])
    | array items =>
      obtain ⟨ids', hnode, hids⟩ := hbec
      refine ⟨ids', hnode, forall₂_trans hcopy.2 hids fun child hchild i hi id hs hat => ?_⟩
      exact h.image_of_at hw hafter (.element (hcovers hm).1 hchild) hs (.item hr hc hi) hat
  · have hp : v.isPlain = true := by simp [Value.isPlain, hn]
    obtain ⟨a, cell, hk, hr, hc, hcopy, -, hbec⟩ := hplain hm hp
    cases cell with
    | array items => exact absurd hcopy.1 (by simp [Value.isArray, hn])
    | object members =>
      obtain ⟨ms', hnode, hms⟩ := hbec
      refine ⟨ms', hnode.trans (Node.ofMembers_eq hms hw.string_iff).symm,
        forall₂_trans hcopy.2 hms fun m hmem m' hmem' id hs hat => ⟨hs.1.trans hat.1, ?_⟩⟩
      exact h.image_of_at hw hafter ((hcovers hm).1.ofMember (Value.kind_ne_of_isPlain hp) hmem) hs.2
        (.item hr hc (List.mem_map_of_mem hmem')) hat.2

theorem inv_start (hs : s.Coherent document) : Inv r document none (start s) :=
  ⟨hs, fun hk => (by cases hk), fun _ _ hk => (by cases hk), fun _ _ hk => (by cases hk), fun hm => (by cases hm),
    .nil, fun hb => (by cases hb), fun hb => (by cases hb), fun hlt => absurd hlt (Nat.not_lt_zero _),
    fun _ _ _ _ hk => (by cases hk)⟩

end Dereferencing

theorem card_composites_le (docs : List Document) :
    ∃ met : Finset (Nat × Nat), (∀ d ∈ docs, d.root.graph.composites ⊆ met) ∧
      met.card ≤ docs.foldr (fun d n => d.root.graph.nodes.size + n) 0 := by
  induction docs with
  | nil => exact ⟨∅, fun d hd => (by cases hd), by simp⟩
  | cons d docs ih =>
    obtain ⟨met, hmet, hcard⟩ := ih
    refine ⟨d.root.graph.composites ∪ met, fun d' hd' => ?_, ?_⟩
    · rcases List.mem_cons.mp hd' with rfl | hd'
      · exact Finset.subset_union_left
      · exact (hmet d' hd').trans Finset.subset_union_right
    · have hunion := Finset.card_union_le d.root.graph.composites met
      have hd := d.root.graph.card_composites_le
      rw [List.foldr_cons]
      omega

/-- The fuel of a construction is enough for all that can be at hand. -/
theorem Resolver.bounded_reachSize {r : Resolver} (hfinite : ∀ loader ∈ r.loader?, loader.Finite) (document : Document)
    (s : Store) : s.Bounded r.loader? document (r.reachSize document s) := by
  obtain ⟨met, hmet, hcard⟩ := card_composites_le (document :: s.cache.entries.map (·.2))
  refine ⟨met, (r.loader?.map Loader.size).getD 0, fun d hd => hmet d ?_, fun loader hl => ?_, ?_⟩
  · rcases hd with rfl | ⟨key, hk⟩
    · exact List.mem_cons_self
    · exact List.mem_cons_of_mem _ (List.mem_map_of_mem (mem_of_lookup hk))
  · rw [hl]
    exact (hfinite loader hl).supplies.mono fun key d hd => by cases hd
  · rw [List.foldr_cons, List.foldr_map] at hcard
    exact Nat.add_le_add_right hcard _

namespace Dereferencing

variable {r : Resolver} {document : Document} {s : Store} {n : Nat} {x : Dereferencing}

/-- What is at hand after a construction is bounded as before. -/
theorem bounded_build (hb : s.Bounded r.loader? document n) {outcome : Except ReferenceError Item}
    (hbuild : build r document n (start s) = (outcome, x)) : x.store.Bounded r.loader? document n := by
  have hterritory : Territory r (Store.Bounded r.loader? document n) fun _ _ _ => True :=
    { grows := fun _ _ => trivial
      element := fun _ _ _ => trivial
      member := fun _ _ _ _ => trivial
      target := fun _ _ _ _ => trivial
      resolve := fun {s v d} hs _ _ => (Resolver.closed_keeps (r.keeps_bounded document n)).resolve v d s hs }
  have hkeeping : (build r document n (start s)).2.Keeping _ _ s := Keeping.build hterritory trivial hb n
  rw [hbuild] at hkeeping
  exact hkeeping.store

/-- A construction that comes to its end has filled all cells. -/
theorem build_eq_ok (hwf : ∀ loader ∈ r.loader?, loader.WellFormed) (hs : s.Coherent document) {root : Item}
    (hbuild : build r document n (start s) = (.ok root, x)) :
    s.cache.Grows x.store.cache ∧ Inv r document none x ∧ x.pending = [] ∧
      Stands r x document.root document root := by
  obtain ⟨root', x₁, htarget, hrest⟩ := run_bind_eq_ok hbuild
  obtain ⟨⟨⟩, x₂, hdrain, hrest⟩ := run_bind_eq_ok hrest
  obtain ⟨⟨⟩, x₃, hclose, hpure⟩ := run_bind_eq_ok hrest
  cases hpure
  obtain ⟨hnil, rfl⟩ := close_eq_ok hclose
  obtain ⟨h₁, hg₁, hroot⟩ := target_spec hwf (inv_start hs) .root htarget
  obtain ⟨h, hknows, -⟩ := drain_spec hwf h₁ hdrain
  exact ⟨hg₁.store.trans hknows.store, h, hnil, hroot.mono hknows⟩

/-- With fuel for all that can be at hand, a construction gets stuck at a reference, or it comes to its end. -/
theorem build_cases (hfun : ∀ loader ∈ r.loader?, loader.IsFunction) (hwf : ∀ loader ∈ r.loader?, loader.WellFormed)
    (hs : s.Coherent document) (hb : s.Bounded r.loader? document n) {outcome : Except ReferenceError Item}
    (hbuild : build r document n (start s) = (outcome, x)) :
    s.cache.Grows x.store.cache ∧
      ((∃ e, outcome = .error e ∧ Stuck r document x.store) ∨
        ∃ root, outcome = .ok root ∧ Inv r document none x ∧ x.pending = [] ∧
          Stands r x document.root document root) := by
  cases outcome with
  | error e =>
    rcases run_bind_eq_error hbuild with htarget | ⟨root, x₁, htarget, hrest⟩
    · obtain ⟨hg, hstuck⟩ := target_error hwf hfun (inv_start hs) .root htarget
      exact ⟨hg, .inl ⟨e, rfl, hstuck⟩⟩
    · obtain ⟨h₁, hg₁, -⟩ := target_spec hwf (inv_start hs) .root htarget
      rcases run_bind_eq_error hrest with hdrain | ⟨⟨⟩, x₂, hdrain, hclosing⟩
      · obtain ⟨hg, hstuck⟩ := drain_error hwf hfun h₁ hdrain
        exact ⟨hg₁.store.trans hg, .inl ⟨e, rfl, hstuck⟩⟩
      · rcases run_bind_eq_error hclosing with hclose | ⟨⟨⟩, x₃, -, hpure⟩
        · -- at the start there is no cell and nothing is pending
          have hempty : (start s).heap.size = 0 ∧ (start s).pending.length = 0 := ⟨rfl, rfl⟩
          have hwork := hg₁.work
          obtain ⟨hne, rfl⟩ := close_eq_error hclose
          exact absurd (pending_of_drain hwf h₁ (bounded_build hb hbuild) (by omega) hdrain) hne
        · cases hpure
  | ok root =>
    obtain ⟨hg, h, hnil, hroot⟩ := build_eq_ok hwf hs hbuild
    exact ⟨hg, .inr ⟨root, rfl, h, hnil, hroot⟩⟩

/-- A finished tree is read as a value. -/
theorem Inv.finish_eq_ok (h : Inv r document none x) (hnil : x.pending = []) {root : Item}
    (hroot : Stands r x document.root document root) :
    ∃ w place, x.finish document (.ok root) = .ok w ∧ w.Represents x.heap root place := by
  cases ht : Value.transform x.store.nextTag x.heap root with
  | error kind =>
    obtain ⟨i, hr, hu⟩ := transform_eq_error ht
    obtain ⟨v, d, hm, hst⟩ := h.stands_of_reaches hnil hroot hr
    exact absurd ((h.unsupported?_eq_none hm hst).symm.trans hu) (by simp)
  | ok w =>
    obtain ⟨-, place, hw⟩ := transform_represents ht
    exact ⟨w, place, by rw [finish, ht]; rfl, hw⟩

/-- A value that comes out was read from a finished tree. -/
theorem finished (hwf : ∀ loader ∈ r.loader?, loader.WellFormed) (hs : s.Coherent document) {w : Value} {after : Store}
    (hrun : r.dereference document s = (.ok w, after)) :
    ∃ x root place, Inv r document none x ∧ x.pending = [] ∧ Stands r x document.root document root ∧
      after.cache = x.store.cache ∧ w.Represents x.heap root place := by
  cases hbuild : build r document (r.reachSize document s) (start s) with
  | mk outcome x =>
    obtain ⟨hfinish, hafter⟩ := Prod.mk.inj ((dereference_run r document s hbuild).symm.trans hrun)
    have hcache : after.cache = x.store.cache := by rw [← hafter]
    cases outcome with
    | error e => cases hfinish
    | ok root =>
      obtain ⟨-, h, hnil, hroot⟩ := build_eq_ok hwf hs hbuild
      obtain ⟨w', place, hw', hrep⟩ := h.finish_eq_ok hnil hroot
      cases hw'.symm.trans hfinish
      exact ⟨x, root, place, h, hnil, hroot, hcache, hrep⟩

end Dereferencing

open Dereferencing in
/-- **Dereferencing is exact.** When the loader has finitely many documents and its answers do not depend on how often
it is asked, and no two documents at hand share nodes, it fails exactly if a reference that is met cannot be resolved,
and otherwise gives the data of the document without references. -/
theorem dereference_exact {r : Resolver} {document : Document} {s after : Store} {result : Except ReferenceError Value}
    (hfun : ∀ loader ∈ r.loader?, loader.IsFunction) (hfinite : ∀ loader ∈ r.loader?, loader.Finite)
    (hs : s.Coherent document) (hrun : r.dereference document s = (result, after)) :
    s.cache.Grows after.cache ∧
      ((∃ e, result = .error e) ↔
        ∃ v d e, Met (r.Leads after) document v d ∧ v.kind = .reference ∧ (r.resolve v d after).1 = .error e) ∧
      ∀ w, result = .ok w → ∃ f, r.Dereferenced document after w f := by
  cases hbuild : build r document (r.reachSize document s) (start s) with
  | mk outcome x =>
    obtain ⟨hg, hcases⟩ := build_cases hfun (fun loader hl => (hfinite loader hl).wellFormed) hs
      (Resolver.bounded_reachSize hfinite document s) hbuild
    obtain ⟨rfl, hafter⟩ := Prod.mk.inj ((dereference_run r document s hbuild).symm.trans hrun)
    have hcache : after.cache = x.store.cache := by rw [← hafter]
    rw [hcache]
    refine ⟨hg, ?_⟩
    rcases hcases with ⟨e, rfl, v, d, e', hm, hk, hstuck⟩ | ⟨root, rfl, h, hnil, hroot⟩
    · -- the reference at which the construction is stuck fails again
      have hm' : Met (r.Leads after) document v d := hm.mono fun _ _ _ _ ht => ht.leads hcache
      exact ⟨⟨fun _ => ⟨v, d, e', hm', hk, hstuck after hcache⟩, fun _ => ⟨e, rfl⟩⟩, fun w hw => by cases hw⟩
    · obtain ⟨w, place, hfinish, hw⟩ := h.finish_eq_ok hnil hroot
      rw [hfinish]
      refine ⟨⟨fun ⟨e, he⟩ => (by cases he), fun ⟨v, d, e, hm, hk, he⟩ => ?_⟩, fun w' hw' => ?_⟩
      · -- whatever is met has an item, so a reference that is met was resolved
        obtain ⟨-, i, ⟨final, hf, -⟩, -⟩ := h.covers hnil hroot hcache hm
        rw [Final, if_pos hk] at hf
        obtain ⟨t, ht, -⟩ := hf
        cases (ht.leads hcache).symm.trans he
      · cases hw'
        exact ⟨_, h.dereferenced hnil hroot hcache hw⟩

/-- A loader of an array that holds itself. -/
def ringLoader : Loader := .ofSources [⟨"http://ring", [], .ok ⟨⟨#[.array [.cell 0]]⟩, .cell 0, "http://ring"⟩⟩]

/-- A document that refers to itself and to the array of the loader. -/
def ringDocument : Document := .anonymous ⟨⟨0, #[.object [("self", 1), ("ring", 3)], .reference [("$ref", 2)],
  .string "#", .reference [("$ref", 4)], .string "http://ring"]⟩, 0⟩

/-- References are followed with the loader. -/
def ringResolver : Resolver := ⟨some ringLoader, .standard⟩

theorem finite_ringLoader : ringLoader.Finite := Loader.finite_ofSources (by decide)

theorem isFunction_ringLoader : ringLoader.IsFunction := by
  intro uri earlier
  by_cases hu : "http://ring" = uri <;> simp [ringLoader, Loader.ofSources, hu]

theorem coherent_ringDocument : (Store.start 1).Coherent ringDocument := Store.coherent_start (by decide) (by decide)

/-- The copy of a document that refers to itself and to a loaded array. -/
theorem dereference_ringDocument :
    ∃ w f, (ringResolver.dereference ringDocument (.start 1)).1 = .ok w ∧
      ringResolver.Dereferenced ringDocument (ringResolver.dereference ringDocument (.start 1)).2 w f := by
  have hfun : ∀ loader ∈ ringResolver.loader?, loader.IsFunction := fun loader hl => by
    cases hl
    exact isFunction_ringLoader
  have hfinite : ∀ loader ∈ ringResolver.loader?, loader.Finite := fun loader hl => by
    cases hl
    exact finite_ringLoader
  obtain ⟨-, -, hcopy⟩ := dereference_exact hfun hfinite coherent_ringDocument (Prod.mk.eta).symm
  have hok : (ringResolver.dereference ringDocument (.start 1)).1.isOk = true := by decide +kernel
  cases hresult : (ringResolver.dereference ringDocument (.start 1)).1 with
  | error e =>
    rw [hresult] at hok
    cases hok
  | ok w =>
    obtain ⟨f, hf⟩ := hcopy w hresult
    exact ⟨w, f, rfl, hf⟩
end JsonSchema
