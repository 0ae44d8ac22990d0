import JsonSchema.Proofs.WellFormed
import JsonSchema.Value.Equality
import Mathlib.Data.List.Forall2
import Mathlib.Data.List.Perm.Subperm
import Mathlib.Logic.Relation

/-!
What equality of values means. Nodes of two graphs may be paired by a relation (`Value.PairedBy`) that is one to one on
arrays and objects, relates the children of paired nodes, elements in order and members by their keys, and relates
scalars in some way of their own. Two values are equal exactly if such a relation takes one to the other, where scalars
stand for the same thing (`Value.eq_iff`). The loop that decides this takes pairs of composite nodes for equal before it
has looked at their children; its invariant (`Pairing.Closed`) says which children are still to be compared.

Relations of this kind can be turned round and composed, so what is paired with equal values is equal.
-/

namespace JsonSchema

/-! ### Pairs of nodes -/

/-- Members agree: there are as many, and every one of the first has a related one under its key in the second. -/
def Members.Agree (R : Nat → Nat → Prop) (l r : List (String × Nat)) : Prop :=
  l.length = r.length ∧ ∀ m ∈ l, ∃ id ∈ r.lookup m.1, R m.2 id

/-- Composite nodes of one kind with related children: elements in order, members by their keys. -/
inductive Node.Agree (R : Nat → Nat → Prop) : Node → Node → Prop
  | array {ids ids' : List Nat} : List.Forall₂ R ids ids' → Agree R (.array ids) (.array ids')
  | object {l r : List (String × Nat)} : Members.Agree R l r → Agree R (.object l) (.object r)
  | reference {l r : List (String × Nat)} : Members.Agree R l r → Agree R (.reference l) (.reference r)

/-- A relation pairs the nodes of two values: composite nodes one to one and with their children, scalars if `scalars`
relates them. -/
structure Value.PairedBy (scalars : Node → Node → Prop) (R : Nat → Nat → Prop) (v w : Value) : Prop where
  root : R v.id w.id
  node : ∀ {a b}, R a b → (v.graph.node a).Agree R (w.graph.node b) ∨ scalars (v.graph.node a) (w.graph.node b)
  right_unique : ∀ {a b b'}, (v.graph.node a).isComposite = true → R a b → R a b' → b = b'
  left_unique : ∀ {a a' b}, (w.graph.node b).isComposite = true → R a b → R a' b → a = a'

section

variable {R Q : Nat → Nat → Prop} {l r s : List (String × Nat)}

theorem Members.Agree.comp (h : Members.Agree R l r) (h' : Members.Agree Q r s) :
    Members.Agree (Relation.Comp R Q) l s := by
  refine ⟨h.1.trans h'.1, fun m hm => ?_⟩
  obtain ⟨id, hid, hR⟩ := h.2 m hm
  obtain ⟨id', hid', hQ⟩ := h'.2 _ (mem_of_lookup hid)
  exact ⟨id', hid', id, hR, hQ⟩

/-- Under distinct keys members that agree have the same keys, in some order. -/
theorem Members.Agree.keys_perm (h : Members.Agree R l r) (hl : (l.map (·.1)).Nodup) :
    (l.map (·.1)).Perm (r.map (·.1)) := by
  have hsub : l.map (·.1) ⊆ r.map (·.1) := by
    intro key hkey
    obtain ⟨m, hm, rfl⟩ := List.mem_map.mp hkey
    obtain ⟨id, hid, -⟩ := h.2 m hm
    exact List.mem_map_of_mem (f := (·.1)) (mem_of_lookup hid)
  exact (hl.subperm hsub).perm_of_length_le (by simp [h.1])

/-- Under distinct keys the members of the second list have related ones in the first. -/
theorem Members.Agree.symm (h : Members.Agree R l r) (hl : (l.map (·.1)).Nodup) : Members.Agree (flip R) r l := by
  have hperm := h.keys_perm hl
  refine ⟨h.1.symm, fun m hm => ?_⟩
  obtain ⟨m', hm', hkey⟩ := List.mem_map.mp (hperm.mem_iff.mpr (List.mem_map_of_mem (f := (·.1)) hm))
  obtain ⟨id, hid, hR⟩ := h.2 m' hm'
  have hlookup : r.lookup m.1 = some m.2 := lookup_of_mem (hperm.nodup_iff.mp hl) hm
  rw [hkey, hlookup] at hid
  cases hid
  exact ⟨m'.2, hkey ▸ lookup_of_mem hl hm', hR⟩

/-- Members agree with themselves if their values are related to themselves. -/
theorem Members.agree_self (hl : (l.map (·.1)).Nodup) : Members.Agree R l l ↔ ∀ a ∈ l.map (·.2), R a a := by
  refine ⟨fun h a ha => ?_, fun h => ⟨rfl, fun m hm => ⟨m.2, lookup_of_mem hl hm, h _ (List.mem_map_of_mem hm)⟩⟩⟩
  obtain ⟨m, hm, rfl⟩ := List.mem_map.mp ha
  obtain ⟨id, hid, hR⟩ := h.2 m hm
  cases (lookup_of_mem hl hm).symm.trans hid
  exact hR

variable {n m k : Node}

theorem Node.Agree.isComposite (h : n.Agree R m) : n.isComposite = true ∧ m.isComposite = true := by
  cases h <;> exact ⟨rfl, rfl⟩

/-- A composite node agrees with itself if its children are related to themselves. -/
theorem Node.agree_self (hn : n.isComposite = true) (hkeys : (n.members.map (·.1)).Nodup) :
    n.Agree R n ↔ ∀ a ∈ n.children, R a a := by
  refine ⟨fun h => ?_, fun h => ?_⟩
  · cases h with
    | array h => exact List.forall₂_same.mp h
    | object h => exact (Members.agree_self hkeys).1 h
    | reference h => exact (Members.agree_self hkeys).1 h
  · cases n with
    | array ids => exact .array (List.forall₂_same.mpr h)
    | object l => exact .object ((Members.agree_self hkeys).2 h)
    | reference l => exact .reference ((Members.agree_self hkeys).2 h)
    | _ => cases hn

theorem forall₂_comp {α β γ : Type} {R : α → β → Prop} {Q : β → γ → Prop} {l : List α} {m : List β} {k : List γ}
    (h : List.Forall₂ R l m) (h' : List.Forall₂ Q m k) : List.Forall₂ (Relation.Comp R Q) l k := by
  induction h generalizing k with
  | nil => exact List.forall₂_nil_left_iff.mpr (List.forall₂_nil_left_iff.mp h')
  | cons hR _ ih =>
    obtain ⟨c, k', hQ, hrest, rfl⟩ := List.forall₂_cons_left_iff.mp h'
    exact .cons ⟨_, hR, hQ⟩ (ih hrest)

theorem Node.Agree.comp (h : n.Agree R m) (h' : m.Agree Q k) : n.Agree (Relation.Comp R Q) k := by
  cases h with
  | array h =>
    cases h' with
    | array h' => exact .array (forall₂_comp h h')
  | object h =>
    cases h' with
    | object h' => exact .object (h.comp h')
  | reference h =>
    cases h' with
    | reference h' => exact .reference (h.comp h')

theorem Node.Agree.symm (h : n.Agree R m) (hn : (n.members.map (·.1)).Nodup) : m.Agree (flip R) n := by
  cases h with
  | array h => exact .array h.flip
  | object h => exact .object (h.symm hn)
  | reference h => exact .reference (h.symm hn)

/-- The children that the loop compares are those that have to be related. -/
theorem Node.agree_iff_pairChildren :
    n.Agree R m ↔ ∃ pairs, n.pairChildren m = some pairs ∧ ∀ q ∈ pairs, R q.1 q.2 := by
  have hmembers : ∀ l r : List (String × Nat), (∀ m ∈ l, ∃ id ∈ r.lookup m.1, R m.2 id) ↔
      ∃ pairs, pairMembers r l = some pairs ∧ ∀ q ∈ pairs, R q.1 q.2 := by
    intro l r
    induction l with
    | nil => simp [pairMembers]
    | cons m l ih =>
      rw [List.forall_mem_cons, ih, pairMembers]
      cases r.lookup m.1 with
      | none => simp
      | some id => cases pairMembers r l <;> simp [or_imp, forall_and]
  have hagree : ∀ l r : List (String × Nat), Members.Agree R l r ↔
      ∃ pairs, (if l.length = r.length then pairMembers r l else none) = some pairs ∧ ∀ q ∈ pairs, R q.1 q.2 := by
    intro l r
    rw [Members.Agree, hmembers]
    split
    · next h => simp [h]
    · next h => simp [h]
  refine ⟨fun h => ?_, fun h => ?_⟩
  · cases h with
    | array h => exact ⟨_, if_pos h.length_eq, fun q hq => List.forall₂_zip h hq⟩
    | object h => exact (hagree _ _).mp h
    | reference h => exact (hagree _ _).mp h
  · obtain ⟨pairs, hpairs, hR⟩ := h
    cases n <;> cases m <;> simp only [pairChildren, reduceCtorEq] at hpairs
    · split at hpairs
      · next hlength =>
        cases hpairs
        exact .array (List.forall₂_iff_zip.mpr ⟨hlength, fun {a b} hab => hR (a, b) hab⟩)
      · cases hpairs
    · exact .object ((hagree _ _).mpr ⟨pairs, hpairs, hR⟩)
    · exact .reference ((hagree _ _).mpr ⟨pairs, hpairs, hR⟩)

theorem Node.Agree.imp_of_mem (h : n.Agree R m) (hRQ : ∀ a ∈ n.children, ∀ b ∈ m.children, R a b → Q a b) :
    n.Agree Q m := by
  have hmembers : ∀ {l r : List (String × Nat)}, Members.Agree R l r →
      (∀ a ∈ l.map (·.2), ∀ b ∈ r.map (·.2), R a b → Q a b) → Members.Agree Q l r := by
    intro l r h hRQ
    refine ⟨h.1, fun m hm => ?_⟩
    obtain ⟨id, hid, hR⟩ := h.2 m hm
    exact ⟨id, hid, hRQ _ (List.mem_map_of_mem hm) _ (List.mem_map_of_mem (mem_of_lookup hid)) hR⟩
  cases h with
  | array h =>
    obtain ⟨hlength, hzip⟩ := List.forall₂_iff_zip.mp h
    exact .array (List.forall₂_iff_zip.mpr ⟨hlength, fun {a b} hab =>
      hRQ a (List.of_mem_zip hab).1 b (List.of_mem_zip hab).2 (hzip hab)⟩)
  | object h => exact .object (hmembers h hRQ)
  | reference h => exact .reference (hmembers h hRQ)

theorem Node.Agree.imp (h : n.Agree R m) (hRQ : ∀ a b, R a b → Q a b) : n.Agree Q m :=
  h.imp_of_mem fun a _ b _ => hRQ a b

/-- Every child of a node has a related one in a node that agrees with it. -/
theorem Node.Agree.exists_child (h : n.Agree R m) {a : Nat} (ha : a ∈ n.children) : ∃ b ∈ m.children, R a b := by
  have hmembers : ∀ {l r : List (String × Nat)}, Members.Agree R l r → a ∈ l.map (·.2) →
      ∃ b ∈ r.map (·.2), R a b := by
    intro l r h ha
    obtain ⟨m, hm, rfl⟩ := List.mem_map.mp ha
    obtain ⟨id, hid, hR⟩ := h.2 m hm
    exact ⟨id, List.mem_map_of_mem (mem_of_lookup hid), hR⟩
  cases h with
  | array h => exact exists_right_of_forall₂ h ha
  | object h => exact hmembers h ha
  | reference h => exact hmembers h ha

theorem Node.isComposite_of_scalarEq (h : n.scalarEq m = true) : n.isComposite = false ∧ m.isComposite = false := by
  cases n <;> cases m <;> simp [scalarEq] at h <;> exact ⟨rfl, rfl⟩

end

theorem Node.isComposite_of_mem_children {n : Node} {a : Nat} (h : a ∈ n.children) : n.isComposite = true := by
  cases n with
  | array | object | reference => rfl
  | _ => cases h

/-- The node can be reached from the value. -/
def Value.Holds (v : Value) (n : Node) : Prop := ∃ id, v.graph.Reaches v.id id ∧ v.graph.node id = n

namespace Value.PairedBy

variable {scalars scalars' both : Node → Node → Prop} {R Q : Nat → Nat → Prop} {u v w : Value}

/-- What is related is paired by the same relation. -/
theorem atNode (h : PairedBy scalars R v w) {a b : Nat} (hab : R a b) : PairedBy scalars R (v.atNode a) (w.atNode b) :=
  { h with root := hab }

theorem agree (h : PairedBy scalars R v w) (hs : ∀ n m, scalars n m → n.isComposite = false) {a b : Nat} (hab : R a b)
    (ha : (v.graph.node a).isComposite = true) : (v.graph.node a).Agree R (w.graph.node b) := by
  rcases h.node hab with h | h
  · exact h
  · exact absurd ha (by simp [hs _ _ h])

/-- Pairs of pairs, where scalars are related by both relations. -/
theorem comp (h : PairedBy scalars R u v) (h' : PairedBy scalars' Q v w)
    (hs : ∀ n m, scalars n m → n.isComposite = false ∧ m.isComposite = false)
    (hs' : ∀ n m, scalars' n m → n.isComposite = false ∧ m.isComposite = false)
    (hboth : ∀ n m k, scalars n m → scalars' m k → both n k) : PairedBy both (Relation.Comp R Q) u w := by
  have hright : ∀ {a b}, (u.graph.node a).isComposite = true → R a b → (v.graph.node b).isComposite = true :=
    fun ha hab => (h.agree (fun n m hnm => (hs n m hnm).1) hab ha).isComposite.2
  have hleft : ∀ {b c}, (w.graph.node c).isComposite = true → Q b c → (v.graph.node b).isComposite = true := by
    intro b c hc hbc
    rcases h'.node hbc with h | h
    · exact h.isComposite.1
    · exact absurd hc (by simp [(hs' _ _ h).2])
  refine ⟨⟨_, h.root, h'.root⟩, ?_, ?_, ?_⟩
  · rintro a c ⟨b, hab, hbc⟩
    rcases h.node hab with hn | hn <;> rcases h'.node hbc with hn' | hn'
    · exact .inl (hn.comp hn')
    · exact absurd hn.isComposite.2 (by simp [(hs' _ _ hn').1])
    · exact absurd hn'.isComposite.1 (by simp [(hs _ _ hn).2])
    · exact .inr (hboth _ _ _ hn hn')
  · rintro a c c' ha ⟨b, hab, hbc⟩ ⟨b', hab', hbc'⟩
    obtain rfl := h.right_unique ha hab hab'
    exact h'.right_unique (hright ha hab) hbc hbc'
  · rintro a a' c hc ⟨b, hab, hbc⟩ ⟨b', hab', hbc'⟩
    obtain rfl := h'.left_unique hc hbc hbc'
    exact h.left_unique (hleft hc hbc) hab hab'

/-- What can be reached in the first value has a partner that can be reached in the second. -/
theorem exists_partner (h : PairedBy scalars R v w) (hs : ∀ n m, scalars n m → n.isComposite = false) {a : Nat}
    (ha : v.graph.Reaches v.id a) : ∃ b, w.graph.Reaches w.id b ∧ R a b := by
  induction ha with
  | root => exact ⟨w.id, .root, h.root⟩
  | child _ hc ih =>
    obtain ⟨b, hb, hab⟩ := ih
    obtain ⟨d, hd, hcd⟩ := (h.agree hs hab (Node.isComposite_of_mem_children hc)).exists_child hc
    exact ⟨d, .child hb hd, hcd⟩

/-- Only what can be reached has to be paired. -/
theorem reaching (h : PairedBy scalars R v w) :
    PairedBy (fun n m => scalars n m ∧ v.Holds n ∧ w.Holds m)
      (fun a b => R a b ∧ v.graph.Reaches v.id a ∧ w.graph.Reaches w.id b) v w := by
  refine ⟨⟨h.root, .root, .root⟩, ?_, fun ha hab hab' => h.right_unique ha hab.1 hab'.1,
    fun hb hab hab' => h.left_unique hb hab.1 hab'.1⟩
  rintro a b ⟨hab, ha, hb⟩
  refine (h.node hab).imp (fun hn => ?_) fun hn => ⟨hn, ⟨a, ha, rfl⟩, b, hb, rfl⟩
  exact hn.imp_of_mem fun c hc d hd hcd => ⟨hcd, .child ha hc, .child hb hd⟩

/-- Pairs the other way round. -/
theorem symm (h : PairedBy scalars R v w) (hv : v.graph.WellFormed) (hs : ∀ n m, scalars n m → scalars' m n) :
    PairedBy scalars' (flip R) w v :=
  ⟨h.root, fun hab => (h.node hab).imp (fun hn => hn.symm (hv.nodup_keys _)) (hs _ _), h.left_unique, h.right_unique⟩

end Value.PairedBy

/-! ### The loop -/

namespace Pairing

variable {left right : Graph} {p p' : Pairing} {todo later later' : List (Nat × Nat)} {q : Nat × Nat}

/-- Two nodes are a pair, or scalars that stand for the same thing. -/
def Covers (left right : Graph) (p : Pairing) (q : Nat × Nat) : Prop :=
  q ∈ p ∨ (left.node q.1).scalarEq (right.node q.2) = true

/-- The children of pairs are covered, or still to be compared, and no node has two partners. -/
structure Closed (left right : Graph) (p : Pairing) (todo : List (Nat × Nat)) : Prop where
  node : ∀ q ∈ p, (left.node q.1).Agree (fun a b => Covers left right p (a, b) ∨ (a, b) ∈ todo) (right.node q.2)
  right_unique : ∀ {a b b'}, (a, b) ∈ p → (a, b') ∈ p → b = b'
  left_unique : ∀ {a a' b}, (a, b) ∈ p → (a', b) ∈ p → a = a'

theorem Covers.mono (h : Covers left right p q) (hp : p ⊆ p') : Covers left right p' q := h.imp_left (@hp q)

theorem Closed.absorb (h : Closed left right p (q :: todo)) {rest : List (Nat × Nat)} (htodo : todo = rest ++ later)
    (habsorb : absorb left right (p, later) q = some (p', later')) :
    Closed left right p' (rest ++ later') ∧ p ⊆ p' ∧ Covers left right p' q := by
  obtain ⟨a, b⟩ := q
  -- a pair that is covered need not be compared any more
  have hdrop : ∀ {c d}, Covers left right p (c, d) ∨ (c, d) ∈ (a, b) :: todo → Covers left right p (a, b) →
      Covers left right p (c, d) ∨ (c, d) ∈ rest ++ later := by
    intro c d hcd hab
    rcases hcd with hcd | hcd
    · exact .inl hcd
    · rcases List.mem_cons.mp hcd with heq | hcd
      · exact .inl (heq ▸ hab)
      · exact .inr (htodo ▸ hcd)
  have hkeep : Covers left right p (a, b) → Closed left right p (rest ++ later) := fun hab =>
    ⟨fun q hq => (h.node q hq).imp fun c d hcd => hdrop hcd hab, h.right_unique, h.left_unique⟩
  unfold Pairing.absorb at habsorb
  dsimp only at habsorb
  split at habsorb
  · next hcomposite =>
    split at habsorb
    · next hmem =>
      cases habsorb
      have hab : Covers left right p (a, b) := .inl (by simpa using hmem)
      exact ⟨hkeep hab, List.Subset.refl _, hab⟩
    · next hnew =>
      split at habsorb
      · cases habsorb
      · next hfree =>
        obtain ⟨pairs, hpairs, heq⟩ := Option.map_eq_some_iff.mp habsorb
        cases heq
        have hfree : ∀ {c d}, (c, d) ∈ p → c ≠ a ∧ d ≠ b := by
          intro c d hcd
          simp only [List.any_eq_true, not_exists, not_and, Bool.or_eq_true, beq_iff_eq, not_or] at hfree
          exact hfree (c, d) hcd
        refine ⟨⟨fun q hq => ?_, fun {c d d'} hd hd' => ?_, fun {c c' d} hc hc' => ?_⟩,
          fun q hq => List.mem_cons_of_mem _ hq, .inl List.mem_cons_self⟩
        · rcases List.mem_cons.mp hq with rfl | hq
          · exact Node.agree_iff_pairChildren.2 ⟨pairs, hpairs, fun q hq => .inr (by simp [hq])⟩
          · refine (h.node q hq).imp fun c d hcd => ?_
            rcases hcd with hcd | hcd
            · exact .inl (hcd.mono fun q hq => List.mem_cons_of_mem _ hq)
            · rcases List.mem_cons.mp hcd with heq | hcd
              · exact .inl (.inl (heq ▸ List.mem_cons_self))
              · refine .inr ?_
                rw [htodo] at hcd
                simp only [List.mem_append] at hcd ⊢
                exact hcd.imp_right .inr
        · rcases List.mem_cons.mp hd with heq | hd <;> rcases List.mem_cons.mp hd' with heq' | hd'
          · exact (Prod.mk.inj heq).2.trans (Prod.mk.inj heq').2.symm
          · exact absurd (Prod.mk.inj heq).1 (hfree hd').1
          · exact absurd (Prod.mk.inj heq').1 (hfree hd).1
          · exact h.right_unique hd hd'
        · rcases List.mem_cons.mp hc with heq | hc <;> rcases List.mem_cons.mp hc' with heq' | hc'
          · exact (Prod.mk.inj heq).1.trans (Prod.mk.inj heq').1.symm
          · exact absurd (Prod.mk.inj heq).2 (hfree hc').2
          · exact absurd (Prod.mk.inj heq').2 (hfree hc).2
          · exact h.left_unique hc hc'
  · split at habsorb
    · next hscalar =>
      cases habsorb
      have hab : Covers left right p (a, b) := .inr hscalar
      exact ⟨hkeep hab, List.Subset.refl _, hab⟩
    · cases habsorb

theorem Closed.foldlM (h : Closed left right p (todo ++ later))
    (hrun : todo.foldlM (Pairing.absorb left right) (p, later) = some (p', later')) :
    Closed left right p' later' ∧ p ⊆ p' ∧ ∀ q ∈ todo, Covers left right p' q := by
  induction todo generalizing p later with
  | nil =>
    cases hrun
    exact ⟨h, List.Subset.refl _, fun q hq => by cases hq⟩
  | cons q todo ih =>
    obtain ⟨⟨p₁, later₁⟩, habsorb, hrun⟩ := Option.bind_eq_some_iff.mp hrun
    obtain ⟨h₁, hsub, hq⟩ := h.absorb rfl habsorb
    obtain ⟨h', hsub', htodo⟩ := ih h₁ hrun
    refine ⟨h', List.Subset.trans hsub hsub', fun q' hq' => ?_⟩
    rcases List.mem_cons.mp hq' with rfl | hq'
    · exact hq.mono hsub'
    · exact htodo q' hq'

/-- When the loop is content, there is a closed pairing without anything left to compare. -/
theorem Closed.agree {rounds : Nat} (h : Closed left right p todo) (hrun : agree left right rounds p todo = true) :
    ∃ p', Closed left right p' [] ∧ p ⊆ p' ∧ ∀ q ∈ todo, Covers left right p' q := by
  induction rounds generalizing p todo with
  | zero =>
    cases todo with
    | nil => exact ⟨p, h, List.Subset.refl _, fun q hq => by cases hq⟩
    | cons q todo => cases hrun
  | succ rounds ih =>
    cases todo with
    | nil => exact ⟨p, h, List.Subset.refl _, fun q hq => by cases hq⟩
    | cons q todo =>
      rw [Pairing.agree] at hrun
      split at hrun
      · next p₁ later hfold =>
        obtain ⟨h₁, hsub, htodo⟩ := Closed.foldlM (by rwa [List.append_nil]) hfold
        obtain ⟨p', h', hsub', -⟩ := ih h₁ hrun
        exact ⟨p', h', List.Subset.trans hsub hsub', fun q hq => (htodo q hq).mono hsub'⟩
      · cases hrun

/-- Pairs of a relation, no two of them with the same node on the left. -/
structure Part (R : Nat → Nat → Prop) (left right : Graph) (p : Pairing) : Prop where
  pair : ∀ q ∈ p, R q.1 q.2 ∧ (left.node q.1).isComposite = true ∧ (right.node q.2).isComposite = true
  nodup : (p.map (·.1)).Nodup

variable {R : Nat → Nat → Prop}

/-- There are no more pairs than nodes. -/
theorem Part.length_le (h : Part R left right p) : p.length ≤ left.nodes.size := by
  have hsub : p.map (·.1) ⊆ List.range left.nodes.size := by
    intro a ha
    obtain ⟨q, hq, rfl⟩ := List.mem_map.mp ha
    refine List.mem_range.mpr ?_
    by_contra hge
    have hnull : left.node q.1 = .null := by
      rw [Graph.node, Array.getElem?_eq_none (Nat.not_lt.mp hge)]
      rfl
    exact absurd (h.pair q hq).2.1 (by simp [hnull, Node.isComposite])
  have hle := (h.nodup.subperm hsub).length_le
  simpa using hle

end Pairing

/-! ### Equality -/

namespace Value.PairedBy

variable {R : Nat → Nat → Prop} {v w : Value} {p : Pairing} {todo later : List (Nat × Nat)} {q : Nat × Nat}
  (h : PairedBy (fun n m => n.scalarEq m = true) R v w)

include h

open Pairing

/-- A pair of the relation is taken in, and a new pair is counted if there is more to compare. -/
theorem absorb_run (hp : Part R v.graph w.graph p) (hlater : ∀ q ∈ later, R q.1 q.2) (hq : R q.1 q.2) :
    ∃ p' later', Pairing.absorb v.graph w.graph (p, later) q = some (p', later') ∧ Part R v.graph w.graph p' ∧
      (∀ q ∈ later', R q.1 q.2) ∧ (p' = p ∧ later' = later ∨ p.length < p'.length) := by
  obtain ⟨a, b⟩ := q
  unfold Pairing.absorb
  dsimp only at hq ⊢
  rcases h.node hq with hagree | hscalar
  · obtain ⟨ha, hb⟩ := hagree.isComposite
    simp only [ha, hb, Bool.and_self, if_true]
    by_cases hmem : (a, b) ∈ p
    · exact ⟨p, later, by simp [hmem], hp, hlater, .inl ⟨rfl, rfl⟩⟩
    · -- a partner of one of the nodes would be the other one
      have hfree : ∀ c d, (c, d) ∈ p → c ≠ a ∧ d ≠ b := by
        refine fun c d hcd => ⟨?_, ?_⟩
        · rintro rfl
          exact hmem (h.right_unique ha hq (hp.pair _ hcd).1 ▸ hcd)
        · rintro rfl
          exact hmem (h.left_unique hb hq (hp.pair _ hcd).1 ▸ hcd)
      obtain ⟨pairs, hpairs, hR⟩ := Node.agree_iff_pairChildren.1 hagree
      refine ⟨(a, b) :: p, pairs ++ later, ?_, ⟨fun q hq' => ?_, ?_⟩, fun q hq' => ?_, .inr (Nat.lt_succ_self _)⟩
      · have hany : ∀ q ∈ p, ¬(q.1 == a || q.2 == b) = true := fun q hq => by
          simpa only [Bool.or_eq_true, beq_iff_eq, not_or] using hfree q.1 q.2 hq
        have hnew : ¬p.contains (a, b) = true := by simpa using hmem
        rw [if_neg hnew, List.any_eq_false.mpr hany, hpairs]
        rfl
      · rcases List.mem_cons.mp hq' with rfl | hq'
        · exact ⟨hq, ha, hb⟩
        · exact hp.pair q hq'
      · refine List.nodup_cons.mpr ⟨fun hmem' => ?_, hp.nodup⟩
        obtain ⟨q, hq', rfl⟩ := List.mem_map.mp hmem'
        exact (hfree q.1 q.2 hq').1 rfl
      · rcases List.mem_append.mp hq' with hq' | hq'
        · exact hR q hq'
        · exact hlater q hq'
  · have ha := (Node.isComposite_of_scalarEq hscalar).1
    exact ⟨p, later, by simp [ha, hscalar], hp, hlater, .inl ⟨rfl, rfl⟩⟩

theorem foldlM_run (hp : Part R v.graph w.graph p) (hlater : ∀ q ∈ later, R q.1 q.2) (htodo : ∀ q ∈ todo, R q.1 q.2) :
    ∃ p' later', todo.foldlM (Pairing.absorb v.graph w.graph) (p, later) = some (p', later') ∧
      Part R v.graph w.graph p' ∧ (∀ q ∈ later', R q.1 q.2) ∧ (p' = p ∧ later' = later ∨ p.length < p'.length) := by
  induction todo generalizing p later with
  | nil => exact ⟨p, later, rfl, hp, hlater, .inl ⟨rfl, rfl⟩⟩
  | cons q todo ih =>
    obtain ⟨p₁, later₁, hrun, hp₁, hlater₁, hcount⟩ := h.absorb_run hp hlater (htodo q List.mem_cons_self)
    obtain ⟨p', later', hrun', hp', hlater', hcount'⟩ := ih hp₁ hlater₁ fun q hq => htodo q (List.mem_cons_of_mem _ hq)
    refine ⟨p', later', ?_, hp', hlater', ?_⟩
    · rw [List.foldlM_cons, hrun]
      exact hrun'
    · rcases hcount with ⟨rfl, rfl⟩ | hlt
      · exact hcount'
      · rcases hcount' with ⟨rfl, -⟩ | hlt'
        · exact .inr hlt
        · exact .inr (Nat.lt_trans hlt hlt')

/-- Every round but the last one finds a new pair, so there are rounds enough. -/
theorem agree_run {rounds : Nat} (hp : Part R v.graph w.graph p) (htodo : ∀ q ∈ todo, R q.1 q.2)
    (hrounds : v.graph.nodes.size + 1 ≤ rounds + p.length) : Pairing.agree v.graph w.graph rounds p todo = true := by
  induction rounds generalizing p todo with
  | zero => have := hp.length_le; omega
  | succ rounds ih =>
    cases todo with
    | nil => rfl
    | cons q todo =>
      obtain ⟨p', later, hrun, hp', hlater, hcount⟩ := h.foldlM_run hp (fun q hq => absurd hq List.not_mem_nil) htodo
      rw [Pairing.agree, hrun]
      dsimp only
      rcases hcount with ⟨-, rfl⟩ | hlt
      · cases rounds <;> rfl
      · exact ih hp' hlater (by omega)

end Value.PairedBy

/-- **Equal values are those whose nodes can be paired**: arrays and objects one to one, with their children in order or
under the same keys, and scalars that stand for the same thing. One round more than there are nodes decides this, and
further rounds decide the same. -/
theorem Pairing.agree_iff {v w : Value} {rounds : Nat} (hrounds : v.graph.nodes.size + 1 ≤ rounds) :
    agree v.graph w.graph rounds [] [(v.id, w.id)] = true ↔
      ∃ R, Value.PairedBy (fun n m => n.scalarEq m = true) R v w := by
  refine ⟨fun h => ?_, fun ⟨R, h⟩ => ?_⟩
  · have hempty : Closed v.graph w.graph [] [(v.id, w.id)] :=
      ⟨fun q hq => (by cases hq), fun hq => (by cases hq), fun hq => (by cases hq)⟩
    obtain ⟨p, hp, -, hroot⟩ := hempty.agree h
    have hmem : ∀ {a b}, (v.graph.node a).isComposite = true ∨ (w.graph.node b).isComposite = true →
        Covers v.graph w.graph p (a, b) → (a, b) ∈ p := by
      intro a b hab hcovers
      refine hcovers.resolve_right fun hscalar => ?_
      obtain ⟨ha, hb⟩ := Node.isComposite_of_scalarEq hscalar
      simp [ha, hb] at hab
    refine ⟨fun a b => Covers v.graph w.graph p (a, b), hroot _ (List.mem_singleton_self _), fun hab => ?_,
      fun ha hab hab' => hp.right_unique (hmem (.inl ha) hab) (hmem (.inl ha) hab'),
      fun hb hab hab' => hp.left_unique (hmem (.inr hb) hab) (hmem (.inr hb) hab')⟩
    refine hab.imp_left fun hab => (hp.node _ hab).imp fun c d hcd => ?_
    exact hcd.resolve_right List.not_mem_nil
  · refine h.agree_run ⟨fun q hq => (by cases hq), List.nodup_nil⟩ (fun q hq => ?_) hrounds
    rw [List.mem_singleton.mp hq]
    exact h.root

/-- Values are equal if and only if their nodes can be paired. -/
theorem Value.eq_iff {v w : Value} :
    v.eq w = true ↔ ∃ R, Value.PairedBy (fun n m => n.scalarEq m = true) R v w :=
  Pairing.agree_iff (Nat.le_refl _)

/-- Scalars are compared at once. -/
theorem Value.eq_scalarEq {v w : Value} (hv : v.node.isComposite = false) : v.eq w = v.node.scalarEq w.node := by
  have hv : (v.graph.node v.id).isComposite = false := hv
  rw [Bool.eq_iff_iff, eq_iff]
  refine ⟨fun ⟨R, hR⟩ => ?_, fun h => ⟨fun a b => a = v.id ∧ b = w.id, ⟨rfl, rfl⟩, ?_, ?_, ?_⟩⟩
  · exact (hR.node hR.root).resolve_left fun hagree => Bool.false_ne_true (hv.symm.trans hagree.isComposite.1)
  · rintro _ _ ⟨rfl, rfl⟩
    exact .inr h
  · rintro a b b' - ⟨-, rfl⟩ ⟨-, rfl⟩
    rfl
  · rintro a a' b - ⟨rfl, -⟩ ⟨rfl, -⟩
    rfl

end JsonSchema
