import JsonSchema.Proofs.Dereference.Keeping
import JsonSchema.Proofs.Requests

/-!
The references that are followed when a document is dereferenced (`Resolver.Followed`): those that are met, and behind
each of them the references that lead on, one from the place to which the other leads (`Resolver.Chain`).

Nothing else is a reason to ask the loader: every request is for the URI to which a reference leads that is followed
(`Resolver.requests_dereference`). And where a reference was resolved, the result is the place of the last reference
behind it (`Resolver.Settled.exists_last`), and all the others were followed to their places, too
(`Resolver.Chain.settled`).
-/

namespace JsonSchema

/-- In the document, the reference leads to another one, the one that is under the text in the cache. -/
def Document.Leaves (d : Document) (link key : String) : Prop :=
  ∃ uri, d.destination link = .ok (.elsewhere uri) ∧ Cache.key uri = key

/-- What the loader was asked for meanwhile has the property. -/
def Store.Asks (P : String → Prop) (s s' : Store) : Prop :=
  ∃ asked, s'.requests = s.requests ++ asked ∧ ∀ key ∈ asked, P key

namespace Store.Asks

variable {P P' : String → Prop} {s s' s'' : Store}

theorem refl (P : String → Prop) (s : Store) : s.Asks P s := ⟨[], (List.append_nil _).symm, by simp⟩

theorem imp (h : s.Asks P s') (hP : ∀ key, P key → P' key) : s.Asks P' s' := by
  obtain ⟨asked, hasked, hkeys⟩ := h
  exact ⟨asked, hasked, fun key hkey => hP key (hkeys key hkey)⟩

theorem trans (h : s.Asks P s') (h' : s'.Asks P s'') : s.Asks P s'' := by
  obtain ⟨asked, hasked, hkeys⟩ := h
  obtain ⟨asked', hasked', hkeys'⟩ := h'
  exact ⟨asked ++ asked', by rw [hasked', hasked, List.append_assoc],
    fun key hkey => (List.mem_append.mp hkey).elim (hkeys key) (hkeys' key)⟩

end Store.Asks

namespace Resolver

open Loading

variable {r : Resolver} {s s' : Store} {document d e : Document} {v : Value} {t : Target} {link last : String}

/-! ### References behind references -/

/-- From a reference in a document, others are followed one after the other, each in the document that holds it. -/
inductive Chain (r : Resolver) (s : Store) : String → Document → String → Document → Prop
  | first {link : String} {d : Document} : Chain r s link d link d
  | next {link next last : String} {d e : Document} {t : Target} : r.resolveTarget link d s = (.ok t, s) →
      t.value.reference? = some next → Chain r s next t.document last e → Chain r s link d last e

/-- A reference that is followed when a document is dereferenced: one that is met, or one behind that. -/
def Followed (r : Resolver) (s : Store) (document : Document) (last : String) (e : Document) : Prop :=
  ∃ v d link, Met (r.Settled s) document v d ∧ v.reference? = some link ∧ r.Chain s link d last e

theorem Chain.mono (h : r.Chain s link d last e) (hg : s.cache.Grows s'.cache) : r.Chain s' link d last e := by
  induction h with
  | first => exact .first
  | next ht hnext _ ih => exact .next ((r.closed_steady.resolveTarget _ _).again ht hg) hnext ih

theorem Followed.mono (h : r.Followed s document last e) (hg : s.cache.Grows s'.cache) :
    r.Followed s' document last e := by
  obtain ⟨v, d, link, hm, hlink, hchain⟩ := h
  exact ⟨v, d, link, met_mono hm hg, hlink, hchain.mono hg⟩

/-! ### What the loader is asked for -/

theorem asks_load (r : Resolver) (uri : Uri) (s : Store) : s.Asks (· = Cache.key uri) (r.load uri s).2 := by
  obtain ⟨es, hrun, hes⟩ := r.load_runs uri s
  refine ⟨_, hrun.requests, fun key hkey => ?_⟩
  obtain ⟨u, hu, rfl⟩ := List.mem_map.mp hkey
  obtain ⟨event, hevent, hrequest⟩ := List.mem_filterMap.mp hu
  rw [hes event hevent u hrequest]
  rfl

theorem asks_resolveTarget (r : Resolver) (link : String) (d : Document) (s : Store) :
    s.Asks (d.Leaves link) (r.resolveTarget link d s).2 := by
  unfold resolveTarget
  rw [run_adapt, run_bind, run_except]
  cases hd : d.destination link with
  | error fault => exact .refl _ s
  | ok destination =>
    cases destination with
    | here fragment => exact .refl _ s
    | elsewhere uri =>
      have hload : s.Asks (d.Leaves link) (r.load uri s).2 :=
        (r.asks_load uri s).imp fun key hkey => ⟨uri, hd, hkey.symm⟩
      dsimp only [reach]
      rw [run_bind, run_adapt]
      cases hr : r.load uri s with
      | mk result s' =>
        rw [hr] at hload
        cases result <;> exact hload

/-- What is asked for in the first hop of a chain is accounted for, whatever follows. -/
theorem asks_first (r : Resolver) (link : String) (d : Document) (s s' : Store) :
    s.Asks (fun key => ∃ last e, r.Chain s' link d last e ∧ e.Leaves last key) (r.resolveTarget link d s).2 :=
  (r.asks_resolveTarget link d s).imp fun _ hkey => ⟨link, d, .first, hkey⟩

/-- The loader is asked for what the references lead to that are followed in a chain. -/
theorem asks_chase (r : Resolver) (more : Nat) (visited : List Location) (link : String) (d : Document) (s : Store) :
    s.Asks (fun key => ∃ last e, r.Chain (r.chase more visited link d s).2 link d last e ∧ e.Leaves last key)
      (r.chase more visited link d s).2 := by
  have hfirst := r.asks_first link d s
  induction more generalizing visited link d s with
  | zero =>
    rw [chase, run_bind]
    cases ht : r.resolveTarget link d s with
    | mk result s₁ =>
      rw [ht] at hfirst
      cases result with
      | error fault => exact hfirst _
      | ok t =>
        dsimp only
        cases t.value.reference? with
        | none => exact hfirst _
        | some next =>
          dsimp only
          split <;> exact hfirst _
  | succ more ih =>
    rw [chase, run_bind]
    cases ht : r.resolveTarget link d s with
    | mk result s₁ =>
      rw [ht] at hfirst
      cases result with
      | error fault => exact hfirst _
      | ok t =>
        dsimp only
        cases hnext : t.value.reference? with
        | none => exact hfirst _
        | some next =>
          dsimp only
          split
          · exact hfirst _
          · have hrest := ih (t.location :: visited) next t.document s₁ (r.asks_first _ _ _)
            have hg := (r.closed_steady.chase more (t.location :: visited) next t.document).grows s₁
            have hagain := (r.closed_steady.resolveTarget link d).again ht hg
            refine (hfirst _).trans (hrest.imp fun key hrest => ?_)
            obtain ⟨last, e, hchain, hkey⟩ := hrest
            exact ⟨last, e, .next hagain hnext hchain, hkey⟩

/-- The loader is asked for what the references lead to that are followed from a reference that is met. -/
theorem asks_resolve (hm : Met (r.Settled s) document v d) :
    s.Asks (fun key => ∃ last e, r.Followed (r.resolve v d s).2 document last e ∧ e.Leaves last key)
      (r.resolve v d s).2 := by
  have hg := (r.closed_steady.resolve v d).grows s
  unfold resolve at hg ⊢
  cases hv : v.reference? with
  | none => exact .refl _ s
  | some link =>
    rw [hv] at hg
    exact (r.asks_chase _ [] link d s).imp fun key ⟨last, e, hchain, hkey⟩ =>
      ⟨last, e, ⟨v, d, link, met_mono hm hg, hv, hchain⟩, hkey⟩

/-! ### What dereferencing looks at -/

/-- What is met is what a construction looks at, while the documents at hand are well-formed. -/
theorem territory_met {Q : Store → Prop} (hwf : ∀ s, Q s → s.WellFormed document)
    (hresolve : ∀ {s v d}, Q s → Met (r.Settled s) document v d → Q (r.resolve v d s).2) :
    Dereferencing.Territory r Q fun s v d => Met (r.Settled s) document v d :=
  { grows := met_mono
    element := fun _ hm hc => .element hm hc
    member := fun {s v d m} hs hm hr hc => by
      obtain ⟨hat, ho⟩ := atHand_of_met hm
      refine hm.ofMember (Value.kind_of_reference? ?_ hr) hc
      rw [ho.graph]
      exact hwf s hs d hat
    target := fun _ hm hr ht => .target hm hr ht
    resolve := fun hs hm _ => hresolve hs hm }

/-- **The loader is asked only for documents to which references lead that are followed.** -/
theorem asks_dereference (hl : ∀ loader ∈ r.loader?, loader.WellFormed) (hs : s.WellFormed document) :
    s.Asks (fun key => ∃ last e, r.Followed (r.dereference document s).2 document last e ∧ e.Leaves last key)
      (r.dereference document s).2 := by
  have hterritory : Dereferencing.Territory r
      (fun s' => s'.WellFormed document ∧
        s.Asks (fun key => ∃ last e, r.Followed s' document last e ∧ e.Leaves last key) s')
      fun s' v d => Met (r.Settled s') document v d := by
    refine territory_met (fun s' hs' => hs'.1) fun {s' v d} ⟨hs', hasks⟩ hm => ?_
    obtain ⟨hg, hwf⟩ := extends_resolve hl document v d s'
    refine ⟨hwf hs', .trans (hasks.imp fun key ⟨last, e, hfollowed, hkey⟩ => ?_) (asks_resolve hm)⟩
    exact ⟨last, e, hfollowed.mono hg, hkey⟩
  obtain ⟨s', ⟨-, hasks⟩, hrun⟩ := keeps_dereferencing hterritory .root ⟨hs, .refl _ s⟩
  rw [hrun]
  exact hasks.imp fun key ⟨last, e, hfollowed, hkey⟩ => ⟨last, e, hfollowed.mono (.refl _), hkey⟩

/-- Dereferencing is a run of events, up to the tag of the new value. -/
theorem dereference_runs (r : Resolver) (document : Document) (s : Store) :
    ∃ es m, r.Run s es m ∧ (r.dereference document s).2 = { m with nextTag := m.nextTag + 1 } := by
  obtain ⟨m, ⟨es, hrun⟩, hafter⟩ := keeps_dereference (r := r) (Q := fun m => ∃ es, r.Run s es m) (G := fun _ => True)
    (fun v d _ m ⟨es, hrun⟩ => by
      obtain ⟨es', hrun'⟩ := r.resolve_runs v d m
      exact ⟨_, hrun.append hrun'⟩)
    (fun _ _ _ _ => trivial) trivial ⟨[], .nil⟩
  exact ⟨es, m, hrun, hafter⟩

/-- The loader is asked only for what has no document and what a reference leads to that is followed; and an entry is
old, or was asked for, or is for the URI of its document. -/
theorem requests_dereference (hl : ∀ loader ∈ r.loader?, loader.WellFormed) (hs : s.WellFormed document) :
    ∃ asked, (r.dereference document s).2.requests = s.requests ++ asked ∧
      (∀ key ∈ asked, s.cache.entries.lookup key = none ∧
        ∃ last e, r.Followed (r.dereference document s).2 document last e ∧ e.Leaves last key) ∧
      ∀ {key d}, (r.dereference document s).2.cache.entries.lookup key = some d →
        s.cache.entries.lookup key = some d ∨ key ∈ asked ∨ d.uri?.map Cache.key = some key := by
  obtain ⟨asked, hasked, hfollowed⟩ := asks_dereference hl hs
  obtain ⟨es, m, hrun, hafter⟩ := r.dereference_runs document s
  -- what was asked for is what the events asked for
  have hevents : asked = (es.filterMap Event.request?).map Uri.toText := by
    have hm : (r.dereference document s).2.requests = m.requests := by rw [hafter]
    exact List.append_cancel_left (hasked.symm.trans (hm.trans hrun.requests))
  refine ⟨asked, hasked, fun key hkey => ⟨?_, hfollowed key hkey⟩, fun {key d} hd => ?_⟩
  · rw [hevents] at hkey
    obtain ⟨uri, huri, rfl⟩ := List.mem_map.mp hkey
    obtain ⟨event, hevent, hrequest⟩ := List.mem_filterMap.mp huri
    obtain ⟨hfragment, hnone⟩ := hrun.get?_eq_none hevent hrequest
    rw [← Cache.key_of_whole hfragment]
    exact hnone
  · rw [hafter] at hd
    rcases hrun.entry_cases hd with hold | ⟨uri, hgiven, rfl | hown⟩ | ⟨other, -, hown⟩
    · exact .inl hold
    · refine .inr (.inl ?_)
      rw [hevents, Cache.key_of_whole (hrun.get?_eq_none hgiven rfl).1]
      exact List.mem_map_of_mem (List.mem_filterMap.mpr ⟨_, hgiven, rfl⟩)
    · exact .inr (.inr hown)
    · exact .inr (.inr hown)

/-! ### What was resolved -/

theorem exists_last_of_chase {more : Nat} {visited : List Location} (h : r.chase more visited link d s = (.ok t, s)) :
    ∃ last e, r.Chain s link d last e ∧ r.resolveTarget last e s = (.ok t, s) := by
  induction more generalizing visited link d with
  | zero =>
    rw [chase] at h
    obtain ⟨t₁, s₁, ht, hrest⟩ := run_bind_eq_ok h
    cases hr : t₁.value.reference? with
    | some next =>
      simp only [hr] at hrest
      split at hrest <;> cases hrest
    | none =>
      simp only [hr] at hrest
      cases hrest
      exact ⟨link, d, .first, ht⟩
  | succ more ih =>
    rw [chase] at h
    obtain ⟨t₁, s₁, ht, hrest⟩ := run_bind_eq_ok h
    cases hr : t₁.value.reference? with
    | none =>
      simp only [hr] at hrest
      cases hrest
      exact ⟨link, d, .first, ht⟩
    | some next =>
      simp only [hr] at hrest
      split at hrest
      · cases hrest
      · have hagain := (r.closed_steady.resolveTarget link d).again ht
          ((r.closed_steady.chase _ _ _ _).grows_of_eq hrest)
        cases ht.symm.trans hagain
        obtain ⟨last, e, hchain, hlast⟩ := ih hrest
        exact ⟨last, e, .next ht hr hchain, hlast⟩

/-- There is a last one among the references behind a reference that is resolved. -/
theorem Settled.exists_last (h : r.Settled s v d t) (hlink : v.reference? = some link) :
    ∃ last e, r.Chain s link d last e ∧ r.resolveTarget last e s = (.ok t, s) := by
  rw [Settled, resolve] at h
  simp only [hlink] at h
  exact exists_last_of_chase h

/-- Of a chain that comes to an end every reference was followed to its place. -/
theorem Chain.settled (h : r.Chain s link d last e) (hlast : r.resolveTarget last e s = (.ok t, s))
    (hend : t.value.reference? = none) {link' : String} {d' : Document} (hchain : r.Chain s link d link' d') :
    ∃ t', r.resolveTarget link' d' s = (.ok t', s) := by
  induction h with
  | first =>
    cases hchain with
    | first => exact ⟨t, hlast⟩
    | next ht hnext _ =>
      cases hlast.symm.trans ht
      cases hend.symm.trans hnext
  | next ht hnext _ ih =>
    cases hchain with
    | first => exact ⟨_, ht⟩
    | next ht' hnext' hchain =>
      cases ht.symm.trans ht'
      cases hnext.symm.trans hnext'
      exact ih hlast hchain

end Resolver

end JsonSchema
