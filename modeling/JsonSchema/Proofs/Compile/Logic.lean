import JsonSchema.Proofs.Loading
import JsonSchema.Schema.Compile

/-!
A logic for runs of the construction of a schema graph. A judgement `Runs I F y post` speaks of both ends of a
computation: begun in a state with the property `I`, it keeps this property and answers with `post`, or it fails with
an error in `F`. What it answers with is about nodes that places have, so it stays true while the construction advances,
and the judgements of the parts of a computation add up to one of the whole.
-/

namespace JsonSchema

/-- What a construction never forgets: documents at hand, nodes that places were given, the node that accepts
nothing. -/
structure Compilation.Advances (x x' : Compilation) : Prop where
  store : x.store.cache.Grows x'.store.cache
  known : ∀ {place id}, (place, id) ∈ x.known → (place, id) ∈ x'.known
  never : ∀ {id}, x.builder.never? = some id → x'.builder.never? = some id

theorem Compilation.Advances.refl (x : Compilation) : x.Advances x := ⟨.refl _, id, id⟩

theorem Compilation.Advances.trans {x x' x'' : Compilation} (h : x.Advances x') (h' : x'.Advances x'') :
    x.Advances x'' := ⟨h.store.trans h'.store, fun hk => h'.known (h.known hk), fun hn => h'.never (h.never hn)⟩

/-- A computation that keeps a property of states and answers what stays true, or fails in an expected way. -/
structure Runs (I : Compilation → Prop) (F : SchemaError → Prop) {α : Type} (y : Compiling α)
    (post : Compilation → α → Prop) : Prop where
  stable : ∀ {x x' : Compilation} {a : α}, x.Advances x' → post x a → post x' a
  answers : ∀ {x x' : Compilation} {a : α}, I x → y x = (.ok a, x') → I x' ∧ x.Advances x' ∧ post x' a
  fails : ∀ {x x' : Compilation} {e : SchemaError}, I x → y x = (.error e, x') → F e

namespace Runs

variable {I : Compilation → Prop} {F : SchemaError → Prop} {α β : Type} {y : Compiling α}
  {post post' : Compilation → α → Prop}

theorem pure (a : α) : Runs I F (pure a) fun _ b => b = a := by
  refine ⟨fun _ => id, fun {x x' b} hI hrun => ?_, fun _ hrun => ?_⟩
  · cases hrun
    exact ⟨hI, .refl x, rfl⟩
  · cases hrun

theorem except (e : Except SchemaError α) (h : ∀ error, e = .error error → F error) :
    Runs I F (liftM e) fun _ a => e = .ok a := by
  refine ⟨fun _ => id, fun {x x' b} hI hrun => ?_, fun {x x' error} _ hrun => ?_⟩
  · obtain ⟨he, rfl⟩ := Prod.mk.inj ((run_except e x).symm.trans hrun)
    exact ⟨hI, .refl x, he⟩
  · exact h error (Prod.mk.inj ((run_except e x).symm.trans hrun)).1

theorem bind {f : α → Compiling β} {rest : α → Compilation → β → Prop} (h : Runs I F y post)
    (hf : ∀ a, Runs I F (f a) (rest a)) : Runs I F (y >>= f) fun x b => ∃ a, post x a ∧ rest a x b := by
  refine ⟨fun hg ⟨a, ha, hb⟩ => ⟨a, h.stable hg ha, (hf a).stable hg hb⟩, fun hI hrun => ?_, fun hI hrun => ?_⟩
  · obtain ⟨a, x₁, hy, hrest⟩ := run_bind_eq_ok hrun
    obtain ⟨hI₁, hg₁, ha⟩ := h.answers hI hy
    obtain ⟨hI', hg', hb⟩ := (hf a).answers hI₁ hrest
    exact ⟨hI', hg₁.trans hg', a, h.stable hg' ha, hb⟩
  · rcases run_bind_eq_error hrun with hy | ⟨a, x₁, hy, hrest⟩
    · exact h.fails hI hy
    · exact (hf a).fails (h.answers hI hy).1 hrest

theorem weaken (h : Runs I F y post) (hpost : ∀ x a, post x a → post' x a)
    (hstable : ∀ {x x' : Compilation} {a : α}, x.Advances x' → post' x a → post' x' a) : Runs I F y post' :=
  ⟨hstable, fun hI hrun => (h.answers hI hrun).imp_right fun h => h.imp_right (hpost _ _), h.fails⟩

theorem map (f : α → β) (h : Runs I F y post) : Runs I F (f <$> y) fun x b => ∃ a, post x a ∧ b = f a := by
  rw [map_eq_pure_bind]
  exact h.bind fun a => .pure (f a)

theorem mapM {l : List β} {f : β → Compiling α} {each : β → Compilation → α → Prop}
    (h : ∀ b ∈ l, Runs I F (f b) (each b)) :
    Runs I F (l.mapM f) fun x as => List.Forall₂ (fun b a => each b x a) l as := by
  induction l with
  | nil =>
    refine (Runs.pure []).weaken (fun x as has => ?_) fun _ has => ?_
    · rw [has]
      exact .nil
    · rw [List.forall₂_nil_left_iff.mp has]
      exact .nil
  | cons b l ih =>
    have hb := h b List.mem_cons_self
    have hl := ih fun b hb => h b (List.mem_cons_of_mem _ hb)
    rw [List.mapM_cons]
    refine (hb.bind fun a => hl.bind fun as => .pure (a :: as)).weaken (fun x as => ?_) fun hg has => ?_
    · rintro ⟨a, ha, as', has, rfl⟩
      exact .cons ha has
    · obtain ⟨a, as', ha, has', rfl⟩ := List.forall₂_cons_left_iff.mp has
      exact .cons (hb.stable hg ha) (hl.stable hg has')

end Runs

end JsonSchema
