import JsonSchema.Proofs.Loading

/-!
Two runs side by side. Computations are in step (`Lockstep.Relates`) if, begun in states that correspond, they end in
states that correspond, with answers that correspond or with failures that do; some failures of the first may be excused,
and then nothing is said of the second. The judgement is closed under the ways in which computations are put together.

Where states are related in any way, failures are the same and none is excused (`Lockstep.joined`), this says that both
runs end the same way, with related answers (`Lockstep.relates_joined_iff`).
-/

namespace JsonSchema

/-- Two results: both are answers, which are related, or both are the same failure. -/
inductive SameEnd {ε α α' : Type} (R : α → α' → Prop) : Except ε α → Except ε α' → Prop
  | ok {a : α} {a' : α'} : R a a' → SameEnd R (.ok a) (.ok a')
  | error (e : ε) : SameEnd R (.error e) (.error e)

namespace SameEnd

variable {ε ε' α β γ : Type} {R : α → β → Prop} {x : Except ε α} {y : Except ε β}

theorem self (x : Except ε α) : SameEnd (· = ·) x x := by
  cases x with
  | ok a => exact .ok rfl
  | error e => exact .error e

theorem mapError (h : SameEnd R x y) (f : ε → ε') : SameEnd R (x.mapError f) (y.mapError f) := by
  cases h with
  | ok hab => exact .ok hab
  | error e => exact .error _

theorem weaken {Q : α → β → Prop} (h : SameEnd R x y) (hQ : ∀ a b, R a b → Q a b) : SameEnd Q x y := by
  cases h with
  | ok hab => exact .ok (hQ _ _ hab)
  | error e => exact .error e

/-- Results that both correspond to a third one. -/
theorem join {Q : α → γ → Prop} {P : β → γ → Prop} {z : Except ε γ} (h : SameEnd R x y) (h' : SameEnd Q x z)
    (hP : ∀ {a b c}, R a b → Q a c → P b c) : SameEnd P y z := by
  cases h with
  | ok hab =>
    cases h' with
    | ok hac => exact .ok (hP hab hac)
  | error e =>
    cases h'
    exact .error e

end SameEnd

/-- How two computations are compared: the states and the failures that correspond, and the failures of the first one
that are excused. -/
structure Lockstep (σ σ' ε ε' : Type) where
  states : σ → σ' → Prop
  errors : ε → ε' → Prop
  excused : ε → Prop

namespace Lockstep

variable {σ σ' ε ε' α α' β β' : Type} (m : Lockstep σ σ' ε ε')

/-- Ends of runs that correspond. -/
inductive Ends (R : α → α' → Prop) : Except ε α × σ → Except ε' α' × σ' → Prop
  | ok {a : α} {a' : α'} {s : σ} {s' : σ'} : R a a' → m.states s s' → Ends R (.ok a, s) (.ok a', s')
  | error {e : ε} {e' : ε'} {s : σ} {s' : σ'} : m.errors e e' → m.states s s' → Ends R (.error e, s) (.error e', s')
  | excused {e : ε} {s : σ} {ending : Except ε' α' × σ'} : m.excused e → Ends R (.error e, s) ending

/-- Runs from corresponding states end alike. -/
def Relates (R : α → α' → Prop) (y : ExceptT ε (StateM σ) α) (y' : ExceptT ε' (StateM σ') α') : Prop :=
  ∀ s s', m.states s s' → m.Ends R (y s) (y' s')

variable {m} {R : α → α' → Prop} {Q : β → β' → Prop}

namespace Relates

theorem pure {a : α} {a' : α'} (h : R a a') : m.Relates R (pure a) (pure a') := fun _ _ hs => .ok h hs

theorem throw {e : ε} {e' : ε'} (h : m.errors e e') :
    m.Relates R (throw e : ExceptT ε (StateM σ) α) (throw e' : ExceptT ε' (StateM σ') α') := fun _ _ hs => .error h hs

theorem weaken {y : ExceptT ε (StateM σ) α} {y' : ExceptT ε' (StateM σ') α'} {P : α → α' → Prop}
    (h : m.Relates R y y') (hP : ∀ a a', R a a' → P a a') : m.Relates P y y' := by
  intro s s' hs
  have hends := h s s' hs
  generalize y s = ending at hends ⊢
  generalize y' s' = ending' at hends ⊢
  cases hends with
  | ok ha hs => exact .ok (hP _ _ ha) hs
  | error he hs => exact .error he hs
  | excused he => exact .excused he

/-- More failures may be excused. -/
theorem excuse {y : ExceptT ε (StateM σ) α} {y' : ExceptT ε' (StateM σ') α'} (h : m.Relates R y y') {excused : ε → Prop}
    (he : ∀ e, m.excused e → excused e) : { m with excused }.Relates R y y' := by
  intro s s' hs
  have hends := h s s' hs
  generalize y s = ending at hends ⊢
  generalize y' s' = ending' at hends ⊢
  cases hends with
  | ok ha hs => exact .ok ha hs
  | error he hs => exact .error he hs
  | excused h => exact .excused (he _ h)

theorem bind {y : ExceptT ε (StateM σ) α} {y' : ExceptT ε' (StateM σ') α'} {f : α → ExceptT ε (StateM σ) β}
    {f' : α' → ExceptT ε' (StateM σ') β'} (h : m.Relates R y y') (hf : ∀ a a', R a a' → m.Relates Q (f a) (f' a')) :
    m.Relates Q (y >>= f) (y' >>= f') := by
  intro s s' hs
  have hends := h s s' hs
  rw [run_bind, run_bind]
  generalize y s = ending at hends
  generalize y' s' = ending' at hends
  cases hends with
  | ok ha hs => exact hf _ _ ha _ _ hs
  | error he hs => exact .error he hs
  | excused he => exact .excused he

/-- What follows may look at the states. -/
theorem get_bind {f : σ → ExceptT ε (StateM σ) β} {f' : σ' → ExceptT ε' (StateM σ') β'}
    (hf : ∀ s s', m.states s s' → m.Relates Q (f s) (f' s')) : m.Relates Q (get >>= f) (get >>= f') := by
  intro s s' hs
  rw [run_bind, run_get, run_bind, run_get]
  exact hf s s' hs s s' hs

section

variable {y : ExceptT ε (StateM σ) α} {y' : ExceptT ε' (StateM σ') α}

/-- Computations with the same answer go on with the same. -/
theorem bind_eq {f : α → ExceptT ε (StateM σ) β} {f' : α → ExceptT ε' (StateM σ') β'}
    (h : m.Relates (· = ·) y y') (hf : ∀ a, m.Relates Q (f a) (f' a)) : m.Relates Q (y >>= f) (y' >>= f') :=
  h.bind fun a _ ha => ha ▸ hf a

theorem map (g : α → β) (h : m.Relates (· = ·) y y') : m.Relates (· = ·) (g <$> y) (g <$> y') := by
  rw [map_eq_pure_bind, map_eq_pure_bind]
  exact h.bind_eq fun a => .pure rfl

end

/-- Steps for the elements of related lists give related lists of answers. -/
theorem mapM {S : α → α' → Prop} {l : List α} {l' : List α'} {f : α → ExceptT ε (StateM σ) β}
    {f' : α' → ExceptT ε' (StateM σ') β'} (hl : List.Forall₂ S l l')
    (h : ∀ a ∈ l, ∀ a' ∈ l', S a a' → m.Relates Q (f a) (f' a')) :
    m.Relates (List.Forall₂ Q) (l.mapM f) (l'.mapM f') := by
  induction hl with
  | nil => exact .pure .nil
  | cons ha _ ih =>
    rw [List.mapM_cons, List.mapM_cons]
    refine (h _ List.mem_cons_self _ List.mem_cons_self ha).bind fun b b' hb => ?_
    refine (ih fun a hmem a' hmem' => h a (List.mem_cons_of_mem _ hmem) a' (List.mem_cons_of_mem _ hmem')).bind ?_
    exact fun bs bs' hbs => .pure (.cons hb hbs)

end Relates

end Lockstep

/-! ### The same failures -/

namespace Lockstep

variable {σ ε ε' α α' : Type} {states : σ → σ → Prop} {R : α → α' → Prop}

/-- Computations with the same failures from states that are related in some way. -/
def joined (states : σ → σ → Prop) (ε : Type) : Lockstep σ σ ε ε := ⟨states, (· = ·), fun _ => False⟩

theorem ends_joined_iff {ending : Except ε α × σ} {ending' : Except ε α' × σ} :
    (joined states ε).Ends R ending ending' ↔ SameEnd R ending.1 ending'.1 ∧ states ending.2 ending'.2 := by
  obtain ⟨result, s⟩ := ending
  obtain ⟨result', s'⟩ := ending'
  constructor
  · rintro (⟨ha, hs⟩ | ⟨he, hs⟩ | he)
    · exact ⟨.ok ha, hs⟩
    · cases he
      exact ⟨.error _, hs⟩
    · exact he.elim
  · rintro ⟨hend, hs⟩
    cases hend with
    | ok ha => exact .ok ha hs
    | error e => exact .error rfl hs

theorem relates_joined_iff {y : ExceptT ε (StateM σ) α} {y' : ExceptT ε (StateM σ) α'} :
    (joined states ε).Relates R y y' ↔
      ∀ s s', states s s' → SameEnd R (y s).1 (y' s').1 ∧ states (y s).2 (y' s').2 :=
  forall₃_congr fun _ _ _ => ends_joined_iff

theorem Relates.adapt {y : ExceptT ε (StateM σ) α} {y' : ExceptT ε (StateM σ) α'}
    (h : (joined states ε).Relates R y y') (f : ε → ε') : (joined states ε').Relates R (y.adapt f) (y'.adapt f) := by
  rw [relates_joined_iff] at h ⊢
  intro s s' hs
  exact ⟨(h s s' hs).1.mapError f, (h s s' hs).2⟩

theorem Relates.except {x : Except ε α} {x' : Except ε α'} (h : SameEnd R x x') :
    (joined states ε).Relates R (liftM x) (liftM x') :=
  relates_joined_iff.2 fun _ _ hs => ⟨h, hs⟩

end Lockstep

end JsonSchema
