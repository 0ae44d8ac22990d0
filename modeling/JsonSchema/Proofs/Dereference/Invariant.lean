import JsonSchema.Proofs.Environment
import JsonSchema.Reference.Dereference

/-!
The construction of data without references, step by step. What it works on is what can be met from the root of a
document (`Met`): the elements of arrays, the members of plain objects, and what references lead to, each in the
document that holds the reference. What was resolved is resolved in the same way later, because documents are only
added to those at hand; so the invariant (`Dereferencing.Inv`) speaks of references that are resolved without a new
document (`Resolver.Settled`). It says of every array and object that is known whether its cell is still blank, is
being filled, or is a copy.

Every step keeps the invariant, or the construction gets stuck at a reference that leads nowhere
(`Dereferencing.Stuck`): looking at a value (`target_spec`), filling a cell (`fill_spec`), emptying the list
(`drain_spec`). There are no more cells than arrays and objects that can be at hand (`Inv.size_le`), so with fuel for
these the list is emptied (`pending_of_drain`).
-/

namespace JsonSchema

/-! ### What is met -/

/-- The value is an array or an object that is no reference. -/
def Value.isPlain (v : Value) : Bool :=
  match v.node with
  | .array _ => true
  | .object _ => true
  | _ => false

/-- The values of a document that are met when references are followed, with the documents that hold them. -/
inductive Met (leads : Leads) (document : Document) : Value → Document → Prop
  | root : Met leads document document.root document
  | element {v child : Value} {d : Document} : Met leads document v d → child ∈ v.elements → Met leads document child d
  | member {v child : Value} {d : Document} {key : String} : Met leads document v d → v.kind ≠ .reference →
      (key, child) ∈ v.members → Met leads document child d
  | target {v : Value} {d : Document} {t : Target} : Met leads document v d → v.kind = .reference → leads v d t →
      Met leads document t.value t.document

/-- What stands in the place of a value: the value, or what it leads to if it is a reference. -/
def Final (leads : Leads) (v : Value) (d : Document) (final : Value) : Prop :=
  if v.kind = .reference then ∃ t, leads v d t ∧ final = t.value else final = v

theorem Met.ofMember {leads : Leads} {document : Document} {v : Value} {d : Document} {m : String × Value}
    (h : Met leads document v d) (hr : v.kind ≠ .reference) (hm : m ∈ v.members) : Met leads document m.2 d :=
  .member h hr hm

theorem Met.mono {leads leads' : Leads} {document : Document}
    (h : ∀ v d t, Met leads document v d → leads v d t → leads' v d t) {v : Value} {d : Document}
    (hm : Met leads document v d) : Met leads' document v d := by
  induction hm with
  | root => exact .root
  | element _ hc ih => exact .element ih hc
  | member _ hk hc ih => exact .member ih hk hc
  | target hm hk hl ih => exact .target ih hk (h _ _ _ hm hl)

namespace Resolver

variable {r : Resolver} {document d d' : Document} {s s' : Store} {v v' : Value} {t : Target}

theorem met_mono (h : Met (r.Settled s) document v d) (hg : s.cache.Grows s'.cache) :
    Met (r.Settled s') document v d :=
  h.mono fun _ _ _ _ ht => ht.mono hg

/-- What is met is part of a document at hand. -/
theorem atHand_of_met (h : Met (r.Settled s) document v d) : s.cache.AtHand document d ∧ d.Owns v := by
  induction h with
  | root => exact ⟨.inl rfl, document.owns_root⟩
  | element _ hc ih => exact ⟨ih.1, ih.2.element hc⟩
  | member _ _ hc ih => exact ⟨ih.1, ih.2.member hc⟩
  | @target v d t _ _ ht ih =>
    obtain ⟨hfound, -⟩ := resolve_found ht
    refine ⟨?_, Document.owns_of_resolve hfound.value⟩
    rcases hfound.document with hd | hd
    · exact hd ▸ ih.1
    · exact .inr hd

theorem eq_of_met (hs : s.Coherent document) (h : Met (r.Settled s) document v d)
    (h' : Met (r.Settled s) document v' d') (heq : v.identity = v'.identity) : v = v' ∧ d = d' :=
  hs.eq_of_identity (atHand_of_met h).1 (atHand_of_met h').1 (atHand_of_met h).2 (atHand_of_met h').2 heq

end Resolver

/-! ### Kinds of values -/

namespace Value

variable {v : Value}

theorem kind_ne_of_isPlain (h : v.isPlain = true) : v.kind ≠ .reference := by
  intro hk
  obtain ⟨members, hn⟩ := kind_eq_reference.1 hk
  simp [isPlain, hn] at h

theorem isComposite_iff : v.node.isComposite = true ↔ v.isPlain = true ∨ v.kind = .reference := by
  unfold isPlain kind Node.kind Node.isComposite
  cases v.node <;> simp

/-- The item of a scalar. -/
def leaf (v : Value) : Item :=
  match v.node with
  | .boolean b => .boolean b
  | .integer i => .integer i
  | .number x => .number x
  | .string s => .string s
  | _ => .null

theorem scalar?_leaf (h : v.node.isComposite = false) : v.leaf.scalar? = some v.node := by
  unfold leaf
  cases hn : v.node <;> simp [hn, Node.isComposite] at h <;> rfl

/-- The empty cell for an array or object. -/
def blank (v : Value) : Cell :=
  match v.node with
  | .array _ => .array []
  | _ => .object []

end Value

namespace Dereferencing

variable {r : Resolver} {document d d' : Document} {n a : Nat} {busy : Option Nat} {x x' x'' : Dereferencing}
  {v v' : Value} {i : Item} {t : Target} {s : Store}

/-! ### The invariant -/

/-- The item of a value that is no reference: a scalar itself, and otherwise the one that is known. -/
def Holds (x : Dereferencing) (v : Value) (i : Item) : Prop :=
  if v.isPlain then x.known.lookup v.identity = some i else i.scalar? = some v.node

/-- The item of a value, of what it leads to if it is a reference. -/
def Stands (r : Resolver) (x : Dereferencing) (v : Value) (d : Document) (i : Item) : Prop :=
  ∃ final, Final (r.Settled x.store) v d final ∧ x.Holds final i

/-- The cell holds the items of the elements or members of a value. -/
def Copies (stands : Value → Item → Prop) (v : Value) (cell : Cell) : Prop :=
  match cell with
  | .array items => v.isArray = true ∧ List.Forall₂ stands v.elements items
  | .object members => v.isArray = false ∧ List.Forall₂ (fun m m' => m.1 = m'.1 ∧ stands m.2 m'.2) v.members members

/-- What holds of a construction while the cell `busy` is being filled. -/
structure Inv (r : Resolver) (document : Document) (busy : Option Nat) (x : Dereferencing) : Prop where
  coherent : x.store.Coherent document
  met_of_known : ∀ {k i}, x.known.lookup k = some i → ∃ v d, v.identity = k ∧
    Met (r.Settled x.store) document v d ∧ v.node.isComposite = true
  reference : ∀ {v d i}, Met (r.Settled x.store) document v d → v.kind = .reference →
    x.known.lookup v.identity = some i → ∃ t, r.Settled x.store v d t ∧ x.Holds t.value i
  plain : ∀ {v d i}, Met (r.Settled x.store) document v d → v.isPlain = true → x.known.lookup v.identity = some i →
    ∃ a, i = .cell a ∧ ((i, v, d) ∈ x.pending ∨ busy = some a ∨
      ∃ cell, x.heap.cells[a]? = some cell ∧ Copies (Stands r x · d ·) v cell)
  pending : ∀ {i v d}, (i, v, d) ∈ x.pending → Met (r.Settled x.store) document v d ∧ v.isPlain = true ∧
    x.known.lookup v.identity = some i ∧ ∃ a : Nat, i = .cell a ∧ x.heap.cells[a]? = some v.blank
  nodup : (x.pending.map (·.1)).Nodup
  busy_lt : ∀ {a}, busy = some a → a < x.heap.size
  busy_free : ∀ {a}, busy = some a → Item.cell a ∉ x.pending.map (·.1)
  owner : ∀ {a}, a < x.heap.size → ∃ v d, Met (r.Settled x.store) document v d ∧ v.isPlain = true ∧
    x.known.lookup v.identity = some (.cell a)
  inj : ∀ {v d v' d' i}, Met (r.Settled x.store) document v d → v.isPlain = true →
    Met (r.Settled x.store) document v' d' → v'.isPlain = true → x.known.lookup v.identity = some i →
    x.known.lookup v'.identity = some i → v.identity = v'.identity

/-- What never changes: documents are added to those at hand, and items to those that are known. -/
structure Knows (x x' : Dereferencing) : Prop where
  store : x.store.cache.Grows x'.store.cache
  known : ∀ {k i}, x.known.lookup k = some i → x'.known.lookup k = some i

/-- What looking at a value may change: beyond that, cells are added that are pending. -/
structure Grows (x x' : Dereferencing) : Prop extends Knows x x' where
  cells : ∀ {a : Nat} {cell}, x.heap.cells[a]? = some cell → x'.heap.cells[a]? = some cell
  work : x'.heap.size + x.pending.length = x.heap.size + x'.pending.length

theorem Knows.refl (x : Dereferencing) : x.Knows x := ⟨.refl _, id⟩

theorem Knows.trans (h : x.Knows x') (h' : x'.Knows x'') : x.Knows x'' :=
  ⟨h.store.trans h'.store, fun hk => h'.known (h.known hk)⟩

theorem Grows.refl (x : Dereferencing) : x.Grows x := ⟨.refl x, id, rfl⟩

theorem Grows.trans (h : x.Grows x') (h' : x'.Grows x'') : x.Grows x'' := by
  refine ⟨h.toKnows.trans h'.toKnows, fun hc => h'.cells (h.cells hc), ?_⟩
  have h₁ := h.work
  have h₂ := h'.work
  omega

theorem Holds.mono (h : x.Knows x') (hi : x.Holds v i) : x'.Holds v i := by
  unfold Holds at hi ⊢
  split
  · next hp =>
    rw [if_pos hp] at hi
    exact h.known hi
  · next hp =>
    rw [if_neg hp] at hi
    exact hi

theorem Final.mono {leads leads' : Leads} (h : ∀ t, leads v d t → leads' v d t) {final : Value}
    (hf : Final leads v d final) : Final leads' v d final := by
  unfold Final at hf ⊢
  split
  · next hk =>
    rw [if_pos hk] at hf
    obtain ⟨t, ht, hfinal⟩ := hf
    exact ⟨t, h t ht, hfinal⟩
  · next hk =>
    rw [if_neg hk] at hf
    exact hf

theorem Stands.mono (h : x.Knows x') (hs : Stands r x v d i) : Stands r x' v d i := by
  obtain ⟨final, hfinal, hi⟩ := hs
  exact ⟨final, Final.mono (fun _ ht => ht.mono h.store) hfinal, hi.mono h⟩

theorem Copies.mono {stands stands' : Value → Item → Prop} (h : ∀ v i, stands v i → stands' v i) {cell : Cell}
    (hc : Copies stands v cell) : Copies stands' v cell := by
  cases cell with
  | array items => exact ⟨hc.1, hc.2.imp fun _ _ => h _ _⟩
  | object members => exact ⟨hc.1, hc.2.imp fun _ _ hm => ⟨hm.1, h _ _ hm.2⟩⟩

namespace Inv

/-- What is known and met later was met before. -/
theorem met_of_lookup (h : Inv r document busy x) {s : Store} (hg : x.store.cache.Grows s.cache)
    (hs : s.Coherent document) (hm : Met (r.Settled s) document v d) (hk : x.known.lookup v.identity = some i) :
    Met (r.Settled x.store) document v d := by
  obtain ⟨v', d', hid, hm', -⟩ := h.met_of_known hk
  obtain ⟨rfl, rfl⟩ := Resolver.eq_of_met hs (Resolver.met_mono hm' hg) hm hid
  exact hm'

theorem cell_lt (h : Inv r document busy x) (hm : Met (r.Settled x.store) document v d) (hp : v.isPlain = true)
    (hk : x.known.lookup v.identity = some (.cell a)) : a < x.heap.size := by
  obtain ⟨b, heq, hb | hb | ⟨cell, hc, -⟩⟩ := h.plain hm hp hk
  · obtain ⟨-, -, -, c, hci, hc⟩ := h.pending hb
    cases hci
    exact (Array.getElem?_eq_some_iff.mp hc).1
  · cases heq
    exact h.busy_lt hb
  · cases heq
    exact (Array.getElem?_eq_some_iff.mp hc).1

/-- There are no more cells than arrays and objects that can be at hand. -/
theorem size_le (h : Inv r document busy x) (hb : x.store.Bounded r.loader? document n) : x.heap.size ≤ n := by
  obtain ⟨met, rest, hmet, -, hn⟩ := hb
  have howner : ∀ a : Nat, ∃ k, a < x.heap.size → k ∈ met ∧ x.known.lookup k = some (.cell a) := by
    intro a
    by_cases ha : a < x.heap.size
    · obtain ⟨v, d, hm, hp, hk⟩ := h.owner ha
      obtain ⟨hd, ho⟩ := Resolver.atHand_of_met hm
      refine ⟨v.identity, fun _ => ⟨hmet d hd ?_, hk⟩⟩
      rw [Value.identity, ho.graph]
      refine Graph.mem_composites ?_
      rw [← ho.graph]
      exact Value.isComposite_iff.2 (.inl hp)
    · exact ⟨(0, 0), fun hlt => absurd hlt ha⟩
  choose key hkey using howner
  have hcard : (Finset.range x.heap.size).card ≤ met.card := by
    refine Finset.card_le_card_of_injOn key (fun a ha => (hkey a (Finset.mem_range.mp ha)).1) fun a ha b hb heq => ?_
    have hka := (hkey a (Finset.mem_range.mp ha)).2
    have hkb := (hkey b (Finset.mem_range.mp hb)).2
    rw [heq, hkb] at hka
    cases hka
    rfl
  rw [Finset.card_range] at hcard
  omega

/-- References are resolved, and the documents at hand become more. -/
theorem load (h : Inv r document busy x) (hg : x.store.cache.Grows s.cache) (hs : s.Coherent document) :
    Inv r document busy { x with store := s } := by
  have hknows : x.Knows { x with store := s } := ⟨hg, id⟩
  have hmet : ∀ {v d i}, Met (r.Settled s) document v d → x.known.lookup v.identity = some i →
      Met (r.Settled x.store) document v d := fun hm hk => h.met_of_lookup hg hs hm hk
  refine ⟨hs, fun hk => ?_, fun hm hr hk => ?_, fun hm hp hk => ?_, fun hp => ?_, h.nodup, h.busy_lt, h.busy_free,
    fun ha => ?_, fun hm hp hm' hp' hk hk' => h.inj (hmet hm hk) hp (hmet hm' hk') hp' hk hk'⟩
  · obtain ⟨v, d, hid, hm, hc⟩ := h.met_of_known hk
    exact ⟨v, d, hid, Resolver.met_mono hm hg, hc⟩
  · obtain ⟨t, ht, hi⟩ := h.reference (hmet hm hk) hr hk
    exact ⟨t, ht.mono hg, hi.mono hknows⟩
  · obtain ⟨a, rfl, hpend | hbusy | ⟨cell, hc, hcopy⟩⟩ := h.plain (hmet hm hk) hp hk
    · exact ⟨a, rfl, .inl hpend⟩
    · exact ⟨a, rfl, .inr (.inl hbusy)⟩
    · exact ⟨a, rfl, .inr (.inr ⟨cell, hc, hcopy.mono fun _ _ hst => hst.mono hknows⟩)⟩
  · obtain ⟨hm, hrest⟩ := h.pending hp
    exact ⟨Resolver.met_mono hm hg, hrest⟩
  · obtain ⟨v, d, hm, hrest⟩ := h.owner ha
    exact ⟨v, d, Resolver.met_mono hm hg, hrest⟩

end Inv

/-- The state after an item is remembered for a value. -/
def learn (x : Dereferencing) (v : Value) (i : Item) : Dereferencing := { x with known := (v.identity, i) :: x.known }

theorem lookup_learn (x : Dereferencing) (v : Value) (i : Item) (k : Nat × Nat) :
    (x.learn v i).known.lookup k = if k = v.identity then some i else x.known.lookup k := by
  by_cases hk : k = v.identity
  · simp [learn, hk]
  · simp [learn, List.lookup_cons, hk, beq_eq_false_iff_ne.mpr hk]

theorem knows_learn (hv : x.known.lookup v.identity = none) : x.Knows (x.learn v i) := by
  refine ⟨.refl _, fun {k j} hk => ?_⟩
  rw [lookup_learn, if_neg]
  · exact hk
  · rintro rfl
    exact absurd (hv.symm.trans hk) (by simp)

theorem grows_learn (hv : x.known.lookup v.identity = none) : x.Grows (x.learn v i) := ⟨knows_learn hv, id, rfl⟩

/-- The item of a reference is remembered. -/
theorem Inv.learn (h : Inv r document busy x) (hm : Met (r.Settled x.store) document v d) (hr : v.kind = .reference)
    (hv : x.known.lookup v.identity = none) (ht : r.Settled x.store v d t) (hi : x.Holds t.value i) :
    Inv r document busy (x.learn v i) := by
  have hknows : x.Knows (x.learn v i) := knows_learn hv
  -- a plain value is not the reference that is remembered
  have hplain : ∀ {w e j}, Met (r.Settled x.store) document w e → w.isPlain = true →
      (x.learn v i).known.lookup w.identity = some j → x.known.lookup w.identity = some j := by
    intro w e j hw hp hk
    rw [lookup_learn, if_neg] at hk
    · exact hk
    · intro heq
      obtain ⟨rfl, -⟩ := Resolver.eq_of_met h.coherent hw hm heq
      exact Value.kind_ne_of_isPlain hp hr
  refine ⟨h.coherent, fun {k j} hk => ?_, fun {w e j} hw hwr hk => ?_, fun hw hp hk => ?_, fun hp => ?_,
    h.nodup, h.busy_lt, h.busy_free, fun ha => ?_,
    fun hm hp hm' hp' hk hk' => h.inj hm hp hm' hp' (hplain hm hp hk) (hplain hm' hp' hk')⟩
  · rw [lookup_learn] at hk
    split at hk
    · next hkv => exact ⟨v, d, hkv.symm, hm, Value.isComposite_iff.2 (.inr hr)⟩
    · exact h.met_of_known hk
  · rw [lookup_learn] at hk
    split at hk
    · next heq =>
      obtain ⟨rfl, rfl⟩ := Resolver.eq_of_met h.coherent hw hm heq
      cases hk
      exact ⟨t, ht, hi.mono hknows⟩
    · obtain ⟨t', ht', hi'⟩ := h.reference hw hwr hk
      exact ⟨t', ht', hi'.mono hknows⟩
  · obtain ⟨a, rfl, hpend | hbusy | ⟨cell, hc, hcopy⟩⟩ := h.plain hw hp (hplain hw hp hk)
    · exact ⟨a, rfl, .inl hpend⟩
    · exact ⟨a, rfl, .inr (.inl hbusy)⟩
    · exact ⟨a, rfl, .inr (.inr ⟨cell, hc, hcopy.mono fun _ _ hst => hst.mono hknows⟩)⟩
  · obtain ⟨hm', hp', hk, hc⟩ := h.pending hp
    exact ⟨hm', hp', hknows.known hk, hc⟩
  · obtain ⟨w, e, hw, hp, hk⟩ := h.owner ha
    exact ⟨w, e, hw, hp, hknows.known hk⟩

/-- The state after an array or object is registered. -/
def enter (x : Dereferencing) (v : Value) (d : Document) : Dereferencing :=
  ⟨x.store, ⟨x.heap.cells.push v.blank⟩, (v.identity, .cell x.heap.size) :: x.known,
    (.cell x.heap.size, v, d) :: x.pending⟩

theorem lookup_enter (x : Dereferencing) (v : Value) (d : Document) (k : Nat × Nat) :
    (x.enter v d).known.lookup k = if k = v.identity then some (.cell x.heap.size) else x.known.lookup k :=
  lookup_learn x v _ k

theorem cells_enter (x : Dereferencing) (v : Value) (d : Document) (a : Nat) :
    (x.enter v d).heap.cells[a]? = if a = x.heap.size then some v.blank else x.heap.cells[a]? :=
  Array.getElem?_push

theorem grows_enter (hv : x.known.lookup v.identity = none) : x.Grows (x.enter v d) := by
  refine ⟨⟨.refl _, (knows_learn hv).known⟩, fun {b cell} hc => ?_, ?_⟩
  · rw [cells_enter, if_neg]
    · exact hc
    · rintro rfl
      rw [Heap.size, Array.getElem?_eq_none (Nat.le_refl _)] at hc
      exact absurd hc (by simp)
  · simp only [enter, Heap.size, Array.size_push, List.length_cons]
    omega

/-- An array or object is registered. -/
theorem Inv.enter (h : Inv r document busy x) (hm : Met (r.Settled x.store) document v d) (hp : v.isPlain = true)
    (hv : x.known.lookup v.identity = none) : Inv r document busy (x.enter v d) := by
  have hg : x.Grows (x.enter v d) := grows_enter hv
  have hknows := hg.toKnows
  have hsize : (x.enter v d).heap.size = x.heap.size + 1 := Array.size_push _
  -- what is known afterwards is the new cell or was known before
  have hlookup : ∀ {w e j}, Met (r.Settled x.store) document w e → (x.enter v d).known.lookup w.identity = some j →
      (w = v ∧ e = d ∧ j = .cell x.heap.size) ∨ x.known.lookup w.identity = some j := by
    intro w e j hw hk
    rw [lookup_enter] at hk
    split at hk
    · next heq =>
      obtain ⟨rfl, rfl⟩ := Resolver.eq_of_met h.coherent hw hm heq
      exact .inl ⟨rfl, rfl, (Option.some.inj hk).symm⟩
    · exact .inr hk
  -- and the cells known before are others
  have hne : ∀ {w e}, Met (r.Settled x.store) document w e → w.isPlain = true →
      x.known.lookup w.identity ≠ some (.cell x.heap.size) := fun hw hpw hk =>
    Nat.lt_irrefl _ (h.cell_lt hw hpw hk)
  have hpending : ∀ {j w e}, (j, w, e) ∈ x.pending → j ≠ .cell x.heap.size := by
    rintro j w e hmem rfl
    obtain ⟨hw, hpw, hk, -⟩ := h.pending hmem
    exact hne hw hpw hk
  refine ⟨h.coherent, fun {k j} hk => ?_, fun {w e j} hw hwr hk => ?_, fun {w e j} hw hpw hk => ?_,
    fun {j w e} hmem => ?_, ?_, fun hb => ?_, fun {b} hb => ?_, fun {b} hlt => ?_,
    fun {w e w' e' j} hw hpw hw' hpw' hk hk' => ?_⟩
  · rw [lookup_enter] at hk
    split at hk
    · next hkv => exact ⟨v, d, hkv.symm, hm, Value.isComposite_iff.2 (.inl hp)⟩
    · exact h.met_of_known hk
  · rcases hlookup hw hk with ⟨rfl, -, -⟩ | hk
    · exact absurd hwr (Value.kind_ne_of_isPlain hp)
    · obtain ⟨t, ht, hi⟩ := h.reference hw hwr hk
      exact ⟨t, ht, hi.mono hknows⟩
  · rcases hlookup hw hk with ⟨rfl, rfl, rfl⟩ | hk
    · exact ⟨_, rfl, .inl List.mem_cons_self⟩
    · obtain ⟨b, rfl, hpend | hbusy | ⟨cell, hc, hcopy⟩⟩ := h.plain hw hpw hk
      · exact ⟨b, rfl, .inl (List.mem_cons_of_mem _ hpend)⟩
      · exact ⟨b, rfl, .inr (.inl hbusy)⟩
      · exact ⟨b, rfl, .inr (.inr ⟨cell, hg.cells hc, hcopy.mono fun _ _ hst => hst.mono hknows⟩)⟩
  · rcases List.mem_cons.mp hmem with heq | hmem
    · cases heq
      exact ⟨hm, hp, by rw [lookup_enter, if_pos rfl], _, rfl, by rw [cells_enter, if_pos rfl]⟩
    · obtain ⟨hw, hpw, hk, b, rfl, hc⟩ := h.pending hmem
      exact ⟨hw, hpw, hknows.known hk, b, rfl, hg.cells hc⟩
  · refine List.nodup_cons.mpr ⟨fun hmem => ?_, h.nodup⟩
    obtain ⟨⟨j, w, e⟩, hmem, heq⟩ := List.mem_map.mp hmem
    exact hpending hmem heq
  · have := h.busy_lt hb
    omega
  · intro hmem
    rcases List.mem_cons.mp hmem with heq | hmem
    · cases heq
      exact Nat.lt_irrefl _ (h.busy_lt hb)
    · exact h.busy_free hb hmem
  · by_cases hb : b = x.heap.size
    · exact ⟨v, d, hm, hp, by rw [lookup_enter, if_pos rfl, hb]⟩
    · obtain ⟨w, e, hw, hpw, hk⟩ := h.owner (a := b) (by omega)
      exact ⟨w, e, hw, hpw, hknows.known hk⟩
  · rcases hlookup hw hk with ⟨rfl, -, rfl⟩ | hold <;> rcases hlookup hw' hk' with ⟨rfl, -, hj⟩ | hold'
    · rfl
    · exact absurd hold' (hne hw' hpw')
    · exact absurd (hj ▸ hold) (hne hw hpw)
    · exact h.inj hw hpw hw' hpw' hold hold'

/-! ### Looking at a value -/

theorem resolving_run {α : Type} (y : Resolving α) (x : Dereferencing) :
    resolving y x = ((y x.store).1, { x with store := (y x.store).2 }) := rfl

theorem item_run (hr : v.kind ≠ .reference) (d : Document) (x : Dereferencing) :
    item v d x =
      match x.known.lookup v.identity with
      | some i => (.ok i, x)
      | none => if v.isPlain then (.ok (.cell x.heap.size), x.enter v d) else (.ok v.leaf, x) := by
  simp only [item, run_bind, run_get]
  cases x.known.lookup v.identity with
  | some i => rfl
  | none =>
    have hregister : ∀ cell, v.blank = cell → register v d cell x = (.ok (.cell x.heap.size), x.enter v d) := by
      rintro cell rfl
      rfl
    cases hn : v.node with
    | array ids => simpa [Value.isPlain, hn] using hregister _ (by simp [Value.blank, hn])
    | object members => simpa [Value.isPlain, hn] using hregister _ (by simp [Value.blank, hn])
    | reference members => exact absurd (Value.kind_eq_reference.2 ⟨members, hn⟩) hr
    | _ => simp [Value.isPlain, Value.leaf, hn, run_pure]

theorem item_spec (h : Inv r document busy x) (hm : Met (r.Settled x.store) document v d) (hr : v.kind ≠ .reference) :
    ∃ i x', item v d x = (.ok i, x') ∧ Inv r document busy x' ∧ x.Grows x' ∧ x'.Holds v i ∧ x'.store = x.store ∧
      ∀ k, k ≠ v.identity → x'.known.lookup k = x.known.lookup k := by
  rw [item_run hr]
  by_cases hp : v.isPlain = true
  · cases hk : x.known.lookup v.identity with
    | some i => exact ⟨i, x, rfl, h, .refl x, by rwa [Holds, if_pos hp], rfl, fun _ _ => rfl⟩
    | none =>
      refine ⟨_, _, by rw [if_pos hp], h.enter hm hp hk, grows_enter hk, ?_, rfl, fun k hne => ?_⟩
      · rw [Holds, if_pos hp, lookup_enter, if_pos rfl]
      · rw [lookup_enter, if_neg hne]
  · have hc : v.node.isComposite = false := by
      rw [Bool.eq_false_iff]
      intro hc
      exact (Value.isComposite_iff.1 hc).elim hp hr
    cases hk : x.known.lookup v.identity with
    | some i =>
      obtain ⟨v', d', hid, hm', hc'⟩ := h.met_of_known hk
      obtain ⟨rfl, -⟩ := Resolver.eq_of_met h.coherent hm' hm hid
      exact absurd hc' (by simp [hc])
    | none =>
      refine ⟨_, _, by rw [if_neg hp], h, .refl x, ?_, rfl, fun _ _ => rfl⟩
      rw [Holds, if_neg hp]
      exact Value.scalar?_leaf hc

/-- A reference that is met and leads nowhere, whatever else is asked for. -/
def Stuck (r : Resolver) (document : Document) (s : Store) : Prop :=
  ∃ v d e, Met (r.Settled s) document v d ∧ v.kind = .reference ∧
    ∀ s' : Store, s'.cache = s.cache → (r.resolve v d s').1 = .error e

theorem target_run_plain (hr : v.kind ≠ .reference) (r : Resolver) (d : Document) (x : Dereferencing) :
    target r v d x = item v d x := by
  rw [target, if_neg hr]

theorem target_run_reference (hr : v.kind = .reference) (r : Resolver) (d : Document) (x : Dereferencing) :
    target r v d x =
      match x.known.lookup v.identity with
      | some i => (.ok i, x)
      | none =>
        match r.resolve v d x.store with
        | (.error e, s) => (.error e, { x with store := s })
        | (.ok t, s) =>
          match item t.value t.document { x with store := s } with
          | (.error e, x') => (.error e, x')
          | (.ok i, x') => (.ok i, x'.learn v i) := by
  rw [target, if_pos hr]
  simp only [run_bind, run_get]
  cases x.known.lookup v.identity with
  | some i => rfl
  | none =>
    simp only [run_bind, resolving_run]
    cases r.resolve v d x.store with
    | mk result s =>
      cases result with
      | error e => rfl
      | ok t =>
        dsimp only
        cases item t.value t.document { x with store := s } with
        | mk result x' => cases result <;> rfl

/-! ### Cells -/
/-- The cell that is being filled may be changed. -/
theorem Inv.touch (h : Inv r document (some a) x) (change : Cell → Cell) :
    Inv r document (some a) { x with heap := x.heap.update (.cell a) change } := by
  have hsize := Heap.size_update x.heap (.cell a) change
  refine ⟨h.coherent, h.met_of_known, h.reference, fun hm hp hk => ?_, fun hmem => ?_, h.nodup,
    fun hb => hsize ▸ h.busy_lt hb, h.busy_free, fun hlt => h.owner (hsize ▸ hlt), h.inj⟩
  · obtain ⟨b, rfl, hpend | hbusy | ⟨cell, hc, hcopy⟩⟩ := h.plain hm hp hk
    · exact ⟨b, rfl, .inl hpend⟩
    · exact ⟨b, rfl, .inr (.inl hbusy)⟩
    · by_cases hb : b = a
      · exact ⟨b, rfl, .inr (.inl (hb ▸ rfl))⟩
      · exact ⟨b, rfl, .inr (.inr ⟨cell, by rw [Heap.cells_update, if_neg hb]; exact hc, hcopy⟩)⟩
  · obtain ⟨hm, hp, hk, b, rfl, hc⟩ := h.pending hmem
    refine ⟨hm, hp, hk, b, rfl, ?_⟩
    rw [Heap.cells_update, if_neg]
    · exact hc
    · rintro rfl
      exact h.busy_free rfl (List.mem_map_of_mem (f := (·.1)) hmem)

/-- A cell that holds what it should is filled. -/
theorem Inv.close (h : Inv r document (some a) x) (hm : Met (r.Settled x.store) document v d) (hp : v.isPlain = true)
    (hk : x.known.lookup v.identity = some (.cell a)) {cell : Cell} (hc : x.heap.cells[a]? = some cell)
    (hcopy : Copies (Stands r x · d ·) v cell) : Inv r document none x := by
  refine ⟨h.coherent, h.met_of_known, h.reference, fun hm' hp' hk' => ?_, h.pending, h.nodup,
    fun hb => (by cases hb), fun hb => (by cases hb), h.owner, h.inj⟩
  obtain ⟨b, rfl, hpend | hbusy | hfilled⟩ := h.plain hm' hp' hk'
  · exact ⟨b, rfl, .inl hpend⟩
  · cases hbusy
    obtain ⟨rfl, rfl⟩ := Resolver.eq_of_met h.coherent hm' hm (h.inj hm' hp' hm hp hk' hk)
    exact ⟨a, rfl, .inr (.inr ⟨cell, hc, hcopy⟩)⟩
  · exact ⟨b, rfl, .inr (.inr hfilled)⟩

/-- The first pending cell becomes the one that is filled. -/
theorem Inv.pop (h : Inv r document none x) {rest : List (Item × Value × Document)}
    (hpending : x.pending = (i, v, d) :: rest) :
    ∃ a, i = .cell a ∧ Inv r document (some a) { x with pending := rest } ∧
      Met (r.Settled x.store) document v d ∧ v.isPlain = true ∧ x.known.lookup v.identity = some (.cell a) ∧
      x.heap.cells[a]? = some v.blank := by
  obtain ⟨hm, hp, hk, a, rfl, hc⟩ := h.pending (i := i) (v := v) (d := d) (by rw [hpending]; exact List.mem_cons_self)
  have hnodup := h.nodup
  rw [hpending, List.map_cons, List.nodup_cons] at hnodup
  refine ⟨a, rfl, ⟨h.coherent, h.met_of_known, h.reference, fun {w e j} hw hpw hkw => ?_, fun hmem => ?_,
    hnodup.2, fun hb => ?_, fun hb => ?_, h.owner, h.inj⟩, hm, hp, hk, hc⟩
  · obtain ⟨b, rfl, hpend | hbusy | hfilled⟩ := h.plain hw hpw hkw
    · rw [hpending] at hpend
      rcases List.mem_cons.mp hpend with heq | hpend
      · cases heq
        exact ⟨a, rfl, .inr (.inl rfl)⟩
      · exact ⟨b, rfl, .inl hpend⟩
    · cases hbusy
    · exact ⟨b, rfl, .inr (.inr hfilled)⟩
  · refine h.pending ?_
    rw [hpending]
    exact List.mem_cons_of_mem _ hmem
  · cases hb
    exact (Array.getElem?_eq_some_iff.mp hc).1
  · cases hb
    exact hnodup.1

/-- One round of a loop over children: the item of a child is written into the cell. -/
def put {β : Type} (r : Resolver) (a : Nat) (d : Document) (value : β → Value) (change : β → Item → Cell → Cell)
    (child : β) : Step Unit := do
  let i ← target r (value child) d
  modify fun x => { x with heap := x.heap.update (.cell a) (change child i) }

/-- Appends an element to an array. -/
def push (_ : Value) (i : Item) : Cell → Cell
  | .array items => .array (items ++ [i])
  | cell => cell

/-- Sets a member of an object. -/
def insert (m : String × Value) (i : Item) : Cell → Cell
  | .object members => .object (Members.insert m.1 i members)
  | cell => cell

theorem fill_eq (r : Resolver) (a : Nat) (v : Value) (d : Document) :
    fill r (.cell a) v d =
      v.elements.forM (put r a d id push) >>= fun _ => v.members.forM (put r a d (·.2) insert) := rfl

theorem foldl_push {children : List Value} {items : List Item} (hl : children.length = items.length) (acc : List Item) :
    (children.zip items).foldl (fun c m => push m.1 m.2 c) (.array acc) = .array (acc ++ items) := by
  induction children generalizing items acc with
  | nil =>
    cases items with
    | nil => simp
    | cons i items => simp at hl
  | cons child children ih =>
    cases items with
    | nil => simp at hl
    | cons i items =>
      simp only [List.length_cons, Nat.add_right_cancel_iff] at hl
      have hpush : push child i (.array acc) = .array (acc ++ [i]) := rfl
      simp only [List.zip_cons_cons, List.foldl_cons, hpush]
      rw [ih hl, List.append_assoc, List.singleton_append]

theorem foldl_insert {children : List (String × Value)} {items : List Item} (hl : children.length = items.length)
    {acc : List (String × Item)} (hn : (acc.map (·.1) ++ children.map (·.1)).Nodup) :
    (children.zip items).foldl (fun c m => insert m.1 m.2 c) (.object acc) =
      .object (acc ++ (children.map (·.1)).zip items) := by
  induction children generalizing items acc with
  | nil =>
    cases items with
    | nil => simp
    | cons i items => simp at hl
  | cons child children ih =>
    cases items with
    | nil => simp at hl
    | cons i items =>
      simp only [List.length_cons, Nat.add_right_cancel_iff] at hl
      have hnew : child.1 ∉ acc.map (·.1) := fun hmem =>
        (List.nodup_append.mp hn).2.2 _ hmem _ (by simp) rfl
      have hinsert : insert child i (.object acc) = .object (acc ++ [(child.1, i)]) :=
        congrArg Cell.object (Members.insert_of_not_mem hnew)
      simp only [List.zip_cons_cons, List.foldl_cons, hinsert, List.map_cons]
      rw [ih hl, List.append_assoc, List.singleton_append]
      simpa [List.append_assoc] using hn

/-! ### What a step keeps -/

section

variable (hwf : ∀ loader ∈ r.loader?, loader.WellFormed)

include hwf

/-- A reference that is met is resolved. -/
theorem resolve_spec (h : Inv r document busy x) (hm : Met (r.Settled x.store) document v d)
    (hr : v.kind = .reference) (ht : r.resolve v d x.store = (.ok t, s)) :
    Inv r document busy { x with store := s } ∧ x.Grows { x with store := s } ∧ r.Settled s v d t ∧
      Met (r.Settled s) document t.value t.document ∧ t.value.kind ≠ .reference := by
  have hg : x.store.cache.Grows s.cache := (r.closed_steady.resolve v d).grows_of_eq ht
  have hs : s.Coherent document := by
    have := (Resolver.closed_keeps (Resolver.keeps_coherent hwf document)).resolve v d x.store h.coherent
    rwa [ht] at this
  have hsettled : r.Settled s v d t := (r.closed_steady.resolve v d).again ht (.refl _)
  have hmet : Met (r.Settled s) document t.value t.document := .target (Resolver.met_mono hm hg) hr hsettled
  obtain ⟨hat, ho⟩ := Resolver.atHand_of_met hmet
  refine ⟨h.load hg hs, ⟨⟨hg, id⟩, id, rfl⟩, hsettled, hmet, ?_⟩
  refine Value.kind_of_reference? ?_ (Resolver.resolve_found ht).2
  rw [ho.graph]
  exact hs.wellFormed _ hat

/-- The item of a value that is met stands for it. -/
theorem target_spec (h : Inv r document busy x) (hm : Met (r.Settled x.store) document v d)
    (hrun : target r v d x = (.ok i, x')) : Inv r document busy x' ∧ x.Grows x' ∧ Stands r x' v d i := by
  by_cases hr : v.kind = .reference
  · have hfinal : ∀ {y : Dereferencing} {t : Target}, r.Settled y.store v d t → Final (r.Settled y.store) v d t.value :=
      fun ht => by rw [Final, if_pos hr]; exact ⟨_, ht, rfl⟩
    rw [target_run_reference hr] at hrun
    cases hk : x.known.lookup v.identity with
    | some j =>
      simp only [hk] at hrun
      cases hrun
      obtain ⟨t, ht, hi⟩ := h.reference hm hr hk
      exact ⟨h, .refl x, t.value, hfinal ht, hi⟩
    | none =>
      cases ht : r.resolve v d x.store with
      | mk result s =>
        cases result with
        | error e => simp only [hk, ht] at hrun; cases hrun
        | ok t =>
          obtain ⟨h₁, hg₁, hsettled, hmt, hrt⟩ := resolve_spec hwf h hm hr ht
          obtain ⟨j, x₂, hitem, h₂, hg₂, hj, hstore, hother⟩ := item_spec h₁ hmt hrt
          simp only [hk, ht, hitem] at hrun
          cases hrun
          have hsettled₂ : r.Settled x₂.store v d t := by rw [hstore]; exact hsettled
          have hv : x₂.known.lookup v.identity = none := by
            rw [hother v.identity]
            · exact hk
            · intro heq
              obtain ⟨rfl, -⟩ := Resolver.eq_of_met h₁.coherent (Resolver.met_mono hm hg₁.store) hmt heq
              exact hrt hr
          have hm₂ : Met (r.Settled x₂.store) document v d := Resolver.met_mono hm (hg₁.trans hg₂).store
          exact ⟨h₂.learn hm₂ hr hv hsettled₂ hj, (hg₁.trans hg₂).trans (grows_learn hv), t.value,
            hfinal hsettled₂, hj.mono (knows_learn hv)⟩
  · rw [target_run_plain hr] at hrun
    obtain ⟨j, x₁, hitem, h₁, hg₁, hj, -, -⟩ := item_spec h hm hr
    rw [hitem] at hrun
    cases hrun
    exact ⟨h₁, hg₁, v, by rw [Final, if_neg hr], hj⟩

/-- Looking at a value fails at a reference that leads nowhere. -/
theorem target_error (hfun : ∀ loader ∈ r.loader?, loader.IsFunction) {e : ReferenceError}
    (h : Inv r document busy x) (hm : Met (r.Settled x.store) document v d)
    (hrun : target r v d x = (.error e, x')) : x.store.cache.Grows x'.store.cache ∧ Stuck r document x'.store := by
  by_cases hr : v.kind = .reference
  · rw [target_run_reference hr] at hrun
    cases hk : x.known.lookup v.identity with
    | some j => simp only [hk] at hrun; cases hrun
    | none =>
      cases ht : r.resolve v d x.store with
      | mk result s =>
        cases result with
        | ok t =>
          obtain ⟨h₁, hg₁, -, hmt, hrt⟩ := resolve_spec hwf h hm hr ht
          obtain ⟨j, x₂, hitem, -⟩ := item_spec h₁ hmt hrt
          simp only [hk, ht, hitem] at hrun
          cases hrun
        | error e' =>
          simp only [hk, ht] at hrun
          cases hrun
          have hg : x.store.cache.Grows s.cache := (r.closed_steady.resolve v d).grows_of_eq ht
          refine ⟨hg, v, d, e, Resolver.met_mono hm hg, hr, fun s' hs' => ?_⟩
          obtain ⟨s₃, h₃, -⟩ := ((Resolver.closed_constant hfun).resolve v d).error_again ht hs'
          rw [h₃]
  · rw [target_run_plain hr] at hrun
    obtain ⟨j, x₁, hitem, -⟩ := item_spec h hm hr
    rw [hitem] at hrun
    cases hrun

theorem forM_put_spec {β : Type} {value : β → Value} {change : β → Item → Cell → Cell} {children : List β} {cell : Cell}
    (h : Inv r document (some a) x)
    (hm : ∀ child ∈ children, Met (r.Settled x.store) document (value child) d) (hc : x.heap.cells[a]? = some cell)
    (hrun : children.forM (put r a d value change) x = (.ok ⟨⟩, x')) :
    ∃ items, Inv r document (some a) x' ∧ x.Knows x' ∧
      x'.heap.size + x.pending.length = x.heap.size + x'.pending.length ∧
      List.Forall₂ (fun child i => Stands r x' (value child) d i) children items ∧
      x'.heap.cells[a]? = some ((children.zip items).foldl (fun c m => change m.1 m.2 c) cell) := by
  induction children generalizing x cell with
  | nil =>
    rw [List.forM] at hrun
    cases hrun
    exact ⟨[], h, .refl _, rfl, .nil, hc⟩
  | cons child children ih =>
    rw [List.forM] at hrun
    obtain ⟨⟨⟩, x₂, hput, hrest⟩ := run_bind_eq_ok hrun
    obtain ⟨i, x₁, htarget, hmodify⟩ := run_bind_eq_ok hput
    cases hmodify
    obtain ⟨h₁, hg, hi⟩ := target_spec hwf h (hm child List.mem_cons_self) htarget
    have hc₂ : ((x₁.heap.update (.cell a) (change child i)).cells[a]?) = some (change child i cell) := by
      rw [Heap.cells_update, if_pos rfl, hg.cells hc]
      rfl
    obtain ⟨items, h', hknows, hwork, hitems, hcell⟩ := ih (h₁.touch _)
      (fun w hw => Resolver.met_mono (hm w (List.mem_cons_of_mem _ hw)) hg.store) hc₂ hrest
    have hknows' : x₁.Knows x' := ⟨hknows.store, hknows.known⟩
    refine ⟨i :: items, h', hg.toKnows.trans hknows', ?_, .cons (hi.mono hknows') hitems, hcell⟩
    have hwork₁ := hg.work
    have hsize := Heap.size_update x₁.heap (.cell a) (change child i)
    dsimp only at hwork
    omega

theorem forM_put_error (hfun : ∀ loader ∈ r.loader?, loader.IsFunction) {β : Type} {value : β → Value}
    {change : β → Item → Cell → Cell} {children : List β} {e : ReferenceError} (h : Inv r document (some a) x)
    (hm : ∀ child ∈ children, Met (r.Settled x.store) document (value child) d)
    (hrun : children.forM (put r a d value change) x = (.error e, x')) :
    x.store.cache.Grows x'.store.cache ∧ Stuck r document x'.store := by
  induction children generalizing x with
  | nil =>
    rw [List.forM] at hrun
    cases hrun
  | cons child children ih =>
    rw [List.forM] at hrun
    rcases run_bind_eq_error hrun with hput | ⟨⟨⟩, x₂, hput, hrest⟩
    · rcases run_bind_eq_error hput with htarget | ⟨i, x₁, -, hmodify⟩
      · exact target_error hwf hfun h (hm child List.mem_cons_self) htarget
      · cases hmodify
    · obtain ⟨i, x₁, htarget, hmodify⟩ := run_bind_eq_ok hput
      cases hmodify
      obtain ⟨h₁, hg, -⟩ := target_spec hwf h (hm child List.mem_cons_self) htarget
      obtain ⟨hrest, hstuck⟩ := ih (h₁.touch _)
        (fun w hw => Resolver.met_mono (hm w (List.mem_cons_of_mem _ hw)) hg.store) hrest
      exact ⟨hg.store.trans hrest, hstuck⟩

/-- A blank cell is filled. -/
theorem fill_spec (h : Inv r document (some a) x) (hm : Met (r.Settled x.store) document v d) (hp : v.isPlain = true)
    (hk : x.known.lookup v.identity = some (.cell a)) (hc : x.heap.cells[a]? = some v.blank)
    (hrun : fill r (.cell a) v d x = (.ok ⟨⟩, x')) : Inv r document none x' ∧ x.Knows x' ∧
      x'.heap.size + x.pending.length = x.heap.size + x'.pending.length := by
  have hr := Value.kind_ne_of_isPlain hp
  rw [fill_eq] at hrun
  obtain ⟨⟨⟩, x₁, helements, hmembers⟩ := run_bind_eq_ok hrun
  obtain ⟨items, h₁, hknows, hwork, hitems, hcell⟩ := forM_put_spec hwf h (fun child hc => .element hm hc) hc helements
  obtain ⟨items', h', hknows', hwork', hitems', hcell'⟩ := forM_put_spec hwf h₁
    (fun m hc => (Resolver.met_mono hm hknows.store).ofMember hr hc) hcell hmembers
  have hall := hknows.trans hknows'
  refine ⟨h'.close (Resolver.met_mono hm hall.store) hp (hall.known hk) hcell' ?_, hall, by omega⟩
  cases hn : v.node with
  | array ids =>
    have hnone : v.members = [] := by simp [Value.members, hn, Node.members]
    have hblank : v.blank = .array [] := by simp [Value.blank, hn]
    rw [hnone] at hitems' ⊢
    cases hitems'
    rw [hblank, foldl_push hitems.length_eq]
    exact ⟨by simp [Value.isArray, hn], hitems.imp fun _ _ hst => hst.mono hknows'⟩
  | object members =>
    have hnone : v.elements = [] := by simp [Value.elements, hn, Node.items]
    have hblank : v.blank = .object [] := by simp [Value.blank, hn]
    obtain ⟨hat, ho⟩ := Resolver.atHand_of_met hm
    have hkeys : (([] : List (String × Item)).map (·.1) ++ v.members.map (·.1)).Nodup := by
      have hnodup := (h.coherent.wellFormed d hat).nodup_keys v.id
      rw [← ho.graph] at hnodup
      rw [List.map_nil, List.nil_append, Value.members, List.map_map]
      exact hnodup
    rw [hnone] at hitems ⊢
    cases hitems
    rw [hblank, List.zip_nil_left, List.foldl_nil, foldl_insert hitems'.length_eq hkeys, List.nil_append]
    have hmap : List.Forall₂ (Stands r x' · d ·) (v.members.map (·.2)) items' := List.forall₂_map_left_iff.mpr hitems'
    exact ⟨by simp [Value.isArray, hn], forall₂_zip_keys hmap⟩
  | _ => simp [Value.isPlain, hn] at hp

theorem fill_error (hfun : ∀ loader ∈ r.loader?, loader.IsFunction) {e : ReferenceError}
    (h : Inv r document (some a) x) (hm : Met (r.Settled x.store) document v d) (hp : v.isPlain = true)
    (hc : x.heap.cells[a]? = some v.blank) (hrun : fill r (.cell a) v d x = (.error e, x')) :
    x.store.cache.Grows x'.store.cache ∧ Stuck r document x'.store := by
  have hr := Value.kind_ne_of_isPlain hp
  rw [fill_eq] at hrun
  rcases run_bind_eq_error hrun with helements | ⟨⟨⟩, x₁, helements, hmembers⟩
  · exact forM_put_error hwf hfun h (fun child hc => .element hm hc) helements
  · obtain ⟨items, h₁, hknows, -⟩ := forM_put_spec hwf h (fun child hc => .element hm hc) hc helements
    obtain ⟨hg, hstuck⟩ := forM_put_error hwf hfun h₁
      (fun m hc => (Resolver.met_mono hm hknows.store).ofMember hr hc) hmembers
    exact ⟨hknows.store.trans hg, hstuck⟩

/-! ### Emptying the list -/

/-- The list is emptied, or every unit of fuel filled a cell. -/
theorem drain_spec {fuel : Nat} (h : Inv r document none x) (hrun : drain r fuel x = (.ok ⟨⟩, x')) :
    Inv r document none x' ∧ x.Knows x' ∧
      (x'.pending = [] ∨ fuel + x'.pending.length + x.heap.size = x'.heap.size + x.pending.length) := by
  induction fuel generalizing x with
  | zero =>
    cases hrun
    exact ⟨h, .refl _, .inr (by omega)⟩
  | succ fuel ih =>
    rw [drain, run_bind_of_ok (run_get x)] at hrun
    cases hpending : x.pending with
    | nil =>
      simp only [hpending] at hrun
      cases hrun
      exact ⟨h, .refl _, .inl hpending⟩
    | cons entry rest =>
      obtain ⟨i, v, d⟩ := entry
      obtain ⟨a, rfl, h₁, hm, hp, hk, hc⟩ := h.pop hpending
      simp only [hpending] at hrun
      obtain ⟨⟨⟩, x₁, hpop, hrun⟩ := run_bind_eq_ok hrun
      cases hpop
      obtain ⟨⟨⟩, x₂, hfill, hrest⟩ := run_bind_eq_ok hrun
      obtain ⟨h₂, hknows, hwork⟩ := fill_spec hwf h₁ hm hp hk hc hfill
      obtain ⟨h', hknows', hdone⟩ := ih h₂ hrest
      refine ⟨h', .trans ⟨hknows.store, hknows.known⟩ hknows', hdone.imp_right fun hspent => ?_⟩
      rw [List.length_cons]
      dsimp only at hwork
      omega

/-- With fuel for all that can be at hand, the list is emptied. -/
theorem pending_of_drain {fuel : Nat} (h : Inv r document none x) (hb : x'.store.Bounded r.loader? document n)
    (hfuel : n + x.pending.length ≤ fuel + x.heap.size) (hrun : drain r fuel x = (.ok ⟨⟩, x')) : x'.pending = [] := by
  obtain ⟨h', -, hnil | hspent⟩ := drain_spec hwf h hrun
  · exact hnil
  · have hsize := h'.size_le hb
    exact List.length_eq_zero_iff.mp (by omega)

theorem drain_error (hfun : ∀ loader ∈ r.loader?, loader.IsFunction) {fuel : Nat} {e : ReferenceError}
    (h : Inv r document none x) (hrun : drain r fuel x = (.error e, x')) :
    x.store.cache.Grows x'.store.cache ∧ Stuck r document x'.store := by
  induction fuel generalizing x with
  | zero => cases hrun
  | succ fuel ih =>
    rw [drain, run_bind_of_ok (run_get x)] at hrun
    cases hpending : x.pending with
    | nil =>
      simp only [hpending] at hrun
      cases hrun
    | cons entry rest =>
      obtain ⟨i, v, d⟩ := entry
      obtain ⟨a, rfl, h₁, hm, hp, hk, hc⟩ := h.pop hpending
      simp only [hpending] at hrun
      rw [run_bind_of_ok (run_modify _ x)] at hrun
      rcases run_bind_eq_error hrun with hfill | ⟨⟨⟩, x₂, hfill, hrest⟩
      · have hstuck := fill_error hwf hfun h₁ hm hp hc hfill
        exact hstuck
      · obtain ⟨h₂, hknows, -⟩ := fill_spec hwf h₁ hm hp hk hc hfill
        obtain ⟨hg, hstuck⟩ := ih h₂ hrest
        exact ⟨hknows.store.trans hg, hstuck⟩

end

end Dereferencing

end JsonSchema
