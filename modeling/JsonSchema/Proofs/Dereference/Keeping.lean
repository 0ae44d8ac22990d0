import JsonSchema.Proofs.Dereference.Invariant

/-!
What a construction of data without references keeps. A construction looks at values of documents at hand, and changes
these by resolving references alone. So whatever the resolution of the references among those values keeps, the whole
construction keeps, whether it comes to its end or not (`Resolver.keeps_dereferencing`).
-/

namespace JsonSchema

section Runs

variable {ε σ α β : Type} {P : σ → Prop}

theorem run_bind_keeps {x : ExceptT ε (StateM σ) α} {f : α → ExceptT ε (StateM σ) β} (hx : ∀ s, P s → P (x s).2)
    (hf : ∀ a s, P s → P (f a s).2) (s : σ) (hs : P s) : P ((x >>= f) s).2 := by
  have h := hx s hs
  rw [run_bind]
  split
  · next a s' hr =>
    rw [hr] at h
    exact hf a s' h
  · next e s' hr =>
    rw [hr] at h
    exact h

theorem run_forM_keeps {l : List β} {f : β → ExceptT ε (StateM σ) PUnit} (hf : ∀ b ∈ l, ∀ s, P s → P (f b s).2) (s : σ)
    (hs : P s) : P (l.forM f s).2 := by
  induction l generalizing s with
  | nil => exact hs
  | cons b l ih =>
    obtain ⟨hb, hl⟩ := List.forall_mem_cons.mp hf
    exact run_bind_keeps hb (fun _ s hs => ih hl s hs) s hs

end Runs

theorem Value.reference?_eq_none {v : Value} (h : v.kind ≠ .reference) : v.reference? = none := by
  unfold reference?
  split
  · next members hn => exact absurd (kind_eq_reference.2 ⟨members, hn⟩) h
  · rfl

namespace Dereferencing

theorem close_run (document : Document) (x : Dereferencing) :
    close document x =
      (if x.pending = [] then .ok ⟨⟩ else .error ⟨document.name, document.name, .endless⟩, x) := by
  rw [close, run_bind_of_ok (run_get x)]
  cases x.pending <;> rfl

theorem close_eq_ok {document : Document} {x x' : Dereferencing} (h : close document x = (.ok ⟨⟩, x')) :
    x.pending = [] ∧ x' = x := by
  rw [close_run] at h
  split at h
  · next hnil =>
    cases h
    exact ⟨hnil, rfl⟩
  · cases h

theorem close_eq_error {document : Document} {x x' : Dereferencing} {e : ReferenceError}
    (h : close document x = (.error e, x')) : x.pending ≠ [] ∧ x' = x := by
  rw [close_run] at h
  split at h
  · cases h
  · next hne =>
    cases h
    exact ⟨hne, rfl⟩

/-- What comes out of a construction. -/
def finish (document : Document) (x : Dereferencing) : Except ReferenceError Item → Except ReferenceError Value
  | .error e => .error e
  | .ok root => (Value.transform x.store.nextTag x.heap root).mapError fun kind =>
      ⟨document.name, document.name, .unsupported kind⟩

theorem dereference_run (r : Resolver) (document : Document) (s : Store) {outcome : Except ReferenceError Item}
    {x : Dereferencing} (hbuild : build r document (r.reachSize document s) (start s) = (outcome, x)) :
    r.dereference document s =
      (x.finish document outcome, { x.store with nextTag := x.store.nextTag + 1 }) := by
  unfold Resolver.dereference
  simp only [hbuild, newTag_run]
  cases outcome with
  | error e => rfl
  | ok root =>
    simp only [finish]
    cases Value.transform x.store.nextTag x.heap root <;> rfl

/-- What a construction looks at, while a property holds of the documents at hand: elements, members, and what
references lead to; and the property is kept when one of these references is resolved. -/
structure Territory (r : Resolver) (Q : Store → Prop) (G : Store → Value → Document → Prop) : Prop where
  grows : ∀ {s s' v d}, G s v d → s.cache.Grows s'.cache → G s' v d
  element : ∀ {s v d child}, Q s → G s v d → child ∈ v.elements → G s child d
  member : ∀ {s v d} {m : String × Value}, Q s → G s v d → v.reference? = none → m ∈ v.members → G s m.2 d
  target : ∀ {s v d t}, Q s → G s v d → v.kind = .reference → r.Settled s v d t → G s t.value t.document
  resolve : ∀ {s v d}, Q s → G s v d → v.kind = .reference → Q (r.resolve v d s).2

/-- The property holds of the documents at hand, which were added to those of an earlier store, and the cells to be
filled are for values that are looked at. -/
structure Keeping (Q : Store → Prop) (G : Store → Value → Document → Prop) (s : Store) (x : Dereferencing) : Prop where
  store : Q x.store
  grows : s.cache.Grows x.store.cache
  pending : ∀ entry ∈ x.pending, G x.store entry.2.1 entry.2.2 ∧ entry.2.1.reference? = none

variable {r : Resolver} {Q : Store → Prop} {G : Store → Value → Document → Prop} {v : Value} {d : Document} {s : Store}
  {x : Dereferencing}

theorem Keeping.since {s' : Store} (h : x.Keeping Q G s') (hg : s.cache.Grows s'.cache) : x.Keeping Q G s :=
  ⟨h.store, hg.trans h.grows, h.pending⟩

theorem Keeping.item (h : x.Keeping Q G s) (hv : G x.store v d) (hr : v.reference? = none) :
    (Dereferencing.item v d x).2.Keeping Q G s := by
  have hregister : ∀ blank, (register v d blank x).2.Keeping Q G s := fun blank =>
    ⟨h.store, h.grows, List.forall_mem_cons.mpr ⟨⟨hv, hr⟩, h.pending⟩⟩
  simp only [Dereferencing.item, run_bind, run_get]
  cases x.known.lookup v.identity with
  | some i => exact h
  | none =>
    cases v.node with
    | array | object | reference => exact hregister _
    | _ => exact h

variable (hG : Territory r Q G)

include hG

theorem Keeping.target (hv : G s v d) (x : Dereferencing) (h : x.Keeping Q G s) :
    (Dereferencing.target r v d x).2.Keeping Q G s := by
  have hvx : G x.store v d := hG.grows hv h.grows
  by_cases hr : v.kind = .reference
  · rw [target_run_reference hr]
    cases x.known.lookup v.identity with
    | some i => exact h
    | none =>
      have hs := hG.resolve h.store hvx hr
      have hg := (r.closed_steady.resolve v d).grows x.store
      dsimp only
      split
      · next e s' ht =>
        rw [ht] at hs hg
        exact ⟨hs, h.grows.trans hg, fun entry he => (h.pending entry he).imp_left (hG.grows · hg)⟩
      · next t s' ht =>
        rw [ht] at hs hg
        have hsettled : r.Settled s' v d t := (r.closed_steady.resolve v d).again ht (.refl _)
        have hx : Keeping Q G s { x with store := s' } :=
          ⟨hs, h.grows.trans hg, fun entry he => (h.pending entry he).imp_left (hG.grows · hg)⟩
        have hitem := hx.item (hG.target hs (hG.grows hvx hg) hr hsettled) (Resolver.resolve_found ht).2
        split
        · next hi =>
          rw [hi] at hitem
          exact hitem
        · next hi =>
          rw [hi] at hitem
          exact ⟨hitem.store, hitem.grows, hitem.pending⟩
  · rw [target_run_plain hr]
    exact h.item hvx (Value.reference?_eq_none hr)

theorem Keeping.fill (hs : Q s) (hv : G s v d) (hr : v.reference? = none) (cell : Item) (x : Dereferencing)
    (h : x.Keeping Q G s) : (Dereferencing.fill r cell v d x).2.Keeping Q G s := by
  have hput : ∀ (w : Value) (change : Item → Heap → Heap), G s w d → ∀ x : Dereferencing, x.Keeping Q G s →
      ((do
        let i ← Dereferencing.target r w d
        modify fun x => { x with heap := change i x.heap } : Step Unit) x).2.Keeping Q G s := fun w change hw x hx =>
    run_bind_keeps (Keeping.target hG hw) (fun i x hx => ⟨hx.store, hx.grows, hx.pending⟩) x hx
  have helements : ∀ x : Dereferencing, x.Keeping Q G s → (v.elements.forM (fun element => do
      let i ← Dereferencing.target r element d
      modify fun x => { x with heap := x.heap.push cell i } : Value → Step Unit) x).2.Keeping Q G s :=
    run_forM_keeps fun w hw => hput w (fun i heap => heap.push cell i) (hG.element hs hv hw)
  have hmembers : ∀ x : Dereferencing, x.Keeping Q G s → (v.members.forM (fun m => do
      let i ← Dereferencing.target r m.2 d
      modify fun x => { x with heap := x.heap.insert cell m.1 i } : String × Value → Step Unit) x).2.Keeping Q G s :=
    run_forM_keeps fun m hm => hput m.2 (fun i heap => heap.insert cell m.1 i) (hG.member hs hv hr hm)
  exact run_bind_keeps helements (fun _ => hmembers) x h

theorem Keeping.drain (fuel : Nat) (x : Dereferencing) (h : x.Keeping Q G s) :
    (Dereferencing.drain r fuel x).2.Keeping Q G s := by
  induction fuel generalizing x with
  | zero => exact h
  | succ fuel ih =>
    rw [Dereferencing.drain, run_bind, run_get]
    dsimp only
    cases hp : x.pending with
    | nil => exact h
    | cons entry rest =>
      obtain ⟨cell, v, d⟩ := entry
      have hpending := h.pending
      rw [hp, List.forall_mem_cons] at hpending
      obtain ⟨⟨hv, hr⟩, hrest⟩ := hpending
      dsimp only
      rw [run_bind, run_modify]
      -- the value is looked at with the documents that are at hand now
      have hfill : (Dereferencing.fill r cell v d { x with pending := rest }).2.Keeping Q G x.store :=
        Keeping.fill hG h.store hv hr cell _ ⟨h.store, .refl _, hrest⟩
      dsimp only
      rw [run_bind]
      split
      · next y hy =>
        rw [hy] at hfill
        exact ih y (hfill.since h.grows)
      · next y hy =>
        rw [hy] at hfill
        exact hfill.since h.grows

theorem Keeping.build {document : Document} (hd : G s document.root document) (hs : Q s) (n : Nat) :
    (Dereferencing.build r document n (start s)).2.Keeping Q G s :=
  run_bind_keeps (Keeping.target hG hd) (fun _ => run_bind_keeps (Keeping.drain hG _) fun _ => run_bind_keeps
    (fun x hx => by rw [close_run]; exact hx) fun _ _ hx => hx) _ ⟨hs, .refl _, by simp [start]⟩

end Dereferencing

open Dereferencing in
/-- **What the resolution of references keeps, dereferencing keeps.** -/
theorem Resolver.keeps_dereferencing {r : Resolver} {Q : Store → Prop} {G : Store → Value → Document → Prop}
    {document : Document} {s : Store} (hG : Territory r Q G) (hd : G s document.root document) (hs : Q s) :
    ∃ s', Q s' ∧ (r.dereference document s).2 = { s' with nextTag := s'.nextTag + 1 } := by
  have hkeeps := Keeping.build hG hd hs (r.reachSize document s)
  cases hbuild : build r document (r.reachSize document s) (start s) with
  | mk outcome x =>
    rw [hbuild] at hkeeps
    exact ⟨x.store, hkeeps.store, by rw [dereference_run r document s hbuild]⟩

/-- Data without references is made of documents to which references lead. -/
theorem Resolver.keeps_dereference {r : Resolver} {Q : Store → Prop} {G : Document → Prop} {document : Document}
    (hresolve : ∀ v d, G d → Loading.Keeps Q (r.resolve v d)) (hG : ∀ s d, Q s → s.cache.Has d → G d)
    (hd : G document) {s : Store} (hs : Q s) :
    ∃ s', Q s' ∧ (r.dereference document s).2 = { s' with nextTag := s'.nextTag + 1 } := by
  have hterritory : Dereferencing.Territory r Q fun _ _ d => G d :=
    { grows := fun h _ => h
      element := fun _ h _ => h
      member := fun _ h _ _ => h
      target := fun {s v d t} hs h _ ht => by
        rcases (resolve_found ht).1.document with hdocument | hdocument
        · exact hdocument ▸ h
        · exact hG s _ hs hdocument
      resolve := fun {s v d} hs h _ => hresolve v d h s hs }
  exact keeps_dereferencing hterritory hd hs

end JsonSchema
