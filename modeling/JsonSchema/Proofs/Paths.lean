import JsonSchema.Proofs.Equality.Bijection
import JsonSchema.Proofs.Places
import Mathlib.Data.List.Induction

/-!
Pointers follow the paths of a value. A path consumes atoms one after the other (`Value.HasPath`): at an array an atom
is the decimal text of the index of an element, at an object or reference the key of a member. An atom that stands for
an index is the decimal text of that index and no other text (`Pointer.index?_eq_some_iff`), so every element has one
atom only. A pointer designates what its atoms lead to, and fails at the first atom that leads nowhere
(`Value.follow_eq_ok_iff`, `Value.follow_eq_error`).
-/

namespace JsonSchema

/-! ### Indices -/

namespace Pointer

theorem toNat_of_isDigit {c : Char} (h : c.isDigit = true) : 48 ≤ c.toNat ∧ c.toNat ≤ 57 := by
  simpa [Char.isDigit, UInt32.le_iff_toNat_le] using h

theorem digitChar_of_isDigit {c : Char} (h : c.isDigit = true) : Nat.digitChar (c.toNat - 48) = c := by
  obtain ⟨hlow, hhigh⟩ := toNat_of_isDigit h
  apply Char.toNat_inj.mp
  rw [Nat.toNat_digitChar_of_lt_ten (by omega)]
  omega

/-- Digits are the decimal text of their number, unless a zero comes before others. -/
theorem toDigits_ofDigitChars {digits : List Char} (hne : digits ≠ []) (hdigit : ∀ c ∈ digits, c.isDigit = true)
    (hzero : digits.head? = some '0' → digits.length ≤ 1) :
    Nat.toDigits 10 (Nat.ofDigitChars 10 digits 0) = digits := by
  induction digits using List.reverseRecOn with
  | nil => exact absurd rfl hne
  | append_singleton digits c ih =>
    have hc : c.isDigit = true := hdigit c (by simp)
    have hlt : c.toNat - 48 < 10 := by
      have := toNat_of_isDigit hc
      omega
    have hlast : Nat.toDigits 10 (c.toNat - 48) = [c] := by
      rw [Nat.toDigits_of_lt_base hlt, digitChar_of_isDigit hc]
    rw [Nat.ofDigitChars_append, Nat.ofDigitChars_cons, Nat.ofDigitChars_nil, show '0'.toNat = 48 from rfl]
    rcases List.eq_nil_or_concat digits with rfl | ⟨_, _, hconcat⟩
    · simpa using hlast
    · have hne' : digits ≠ [] := by simp [hconcat]
      -- with a digit behind it the first one is no zero, so the number before the last digit is not zero
      have hhead : digits.head? ≠ some '0' := by
        intro h
        have hlength := hzero (by rw [List.head?_append_of_ne_nil _ hne', h])
        have hpos := List.length_pos_iff.mpr hne'
        rw [List.length_append, List.length_singleton] at hlength
        omega
      have hdigits := ih hne' (fun d hd => hdigit d (by simp [hd])) (fun h => absurd h hhead)
      have hpos : 0 < Nat.ofDigitChars 10 digits 0 := by
        apply Nat.pos_of_ne_zero
        intro h
        rw [h, Nat.toDigits_zero] at hdigits
        exact hhead (by rw [← hdigits]; rfl)
      rw [← Nat.toDigits_append_toDigits (by decide) hpos hlt, hdigits, hlast]

/-- An atom stands for an index if it is its decimal text. -/
theorem index?_eq_some_iff {atom : String} {n : Nat} : index? atom = some n ↔ atom = toString n ∧ n < indexLimit := by
  constructor
  · intro h
    have hvalue := index?_eq_some h
    unfold index? at h
    dsimp only at h
    split at h
    · cases h
    · next hdigits =>
      split at h
      · cases h
      · next hzero =>
        split at h
        · next hlt =>
          simp only [Bool.or_eq_true, List.isEmpty_iff, Bool.not_eq_true', not_or, Bool.not_eq_false,
            List.all_eq_true] at hdigits
          simp only [Bool.and_eq_true, decide_eq_true_eq, beq_iff_eq, not_and] at hzero
          have htext : Nat.toDigits 10 n = atom.toList := by
            rw [← hvalue]
            exact toDigits_ofDigitChars hdigits.1 hdigits.2 fun hhead => Nat.not_lt.mp fun hlong => hzero hlong hhead
          refine ⟨?_, Option.some.inj h ▸ hlt⟩
          rw [Nat.toString_eq_ofList_toDigits, htext, String.ofList_toList]
        · cases h
  · rintro ⟨rfl, hlt⟩
    exact index?_toString hlt

theorem toString_injective {m n : Nat} (h : toString m = toString n) : m = n := by
  rw [← decimal_toString m, h, decimal_toString]

end Pointer

/-! ### Paths -/

/-- Atoms lead from a value to another: at an array an atom is the decimal text of the index of an element, at an object
or reference the key of a member. -/
inductive Value.HasPath : Value → List String → Value → Prop
  | here {v : Value} : HasPath v [] v
  | element {v child w : Value} {index : Nat} {atoms : List String} : v.elements[index]? = some child →
      index < Pointer.indexLimit → HasPath child atoms w → HasPath v (toString index :: atoms) w
  | member {v child w : Value} {key : String} {atoms : List String} : (key, child) ∈ v.members →
      HasPath child atoms w → HasPath v (key :: atoms) w

namespace Value

variable {v w child root : Value} {atom key : String} {atoms before after : List String} {index position : Nat}

theorem getElem?_elements : v.elements[index]? = v.at? index := List.getElem?_map ..

theorem mem_members_iff (hv : v.graph.WellFormed) : (key, child) ∈ v.members ↔ v.get? key = some child :=
  ⟨get?_of_mem_members hv, mem_members_of_get?⟩

theorem graph_of_step (h : v.step atom = .ok child) : child.graph = v.graph := by
  rcases step_eq_ok_iff.1 h with ⟨index, -, hc⟩ | hc
  · exact graph_of_at? hc
  · exact graph_of_get? hc

/-- One atom leads to an element by its index, and to a member by its key. -/
theorem step_eq_ok_iff_child (hv : v.graph.WellFormed) : v.step atom = .ok child ↔
    (∃ index < Pointer.indexLimit, atom = toString index ∧ v.elements[index]? = some child) ∨
      (atom, child) ∈ v.members := by
  rw [step_eq_ok_iff, mem_members_iff hv]
  refine or_congr_left (exists_congr fun index => ?_)
  rw [Pointer.index?_eq_some_iff, getElem?_elements]
  tauto

/-- A path is followed to its end. -/
theorem follow_eq_ok_iff (hv : v.graph.WellFormed) : v.follow position atoms = .ok w ↔ HasPath v atoms w := by
  induction atoms generalizing v position with
  | nil =>
    constructor
    · intro h
      cases h
      exact .here
    · intro h
      cases h
      rfl
  | cons atom atoms ih =>
    constructor
    · intro h
      rw [follow] at h
      cases hs : v.step atom with
      | error fault => simp [hs] at h
      | ok child =>
        rw [hs] at h
        have hrest := (ih (graph_of_step hs ▸ hv)).1 h
        rcases (step_eq_ok_iff_child hv).1 hs with ⟨index, hlt, rfl, hc⟩ | hc
        · exact .element hc hlt hrest
        · exact .member hc hrest
    · intro h
      have hfollow {child : Value} (hs : v.step atom = .ok child) (hrest : HasPath child atoms w) :
          v.follow position (atom :: atoms) = .ok w := by
        rw [follow, hs]
        exact (ih (graph_of_step hs ▸ hv)).2 hrest
      cases h with
      | element hc hlt hrest => exact hfollow ((step_eq_ok_iff_child hv).2 (.inl ⟨_, hlt, rfl, hc⟩)) hrest
      | member hc hrest => exact hfollow ((step_eq_ok_iff_child hv).2 (.inr hc)) hrest

/-- Atoms fail where the ones before lead to a value, and the next one leads nowhere from there. -/
theorem follow_eq_error {fault : Pointer.Missing} {k : Nat} (hv : v.graph.WellFormed)
    (h : v.follow k atoms = .error (position, fault)) :
    ∃ before atom after w, atoms = before ++ atom :: after ∧ position = k + before.length ∧ HasPath v before w ∧
      w.step atom = .error fault := by
  induction atoms generalizing v k with
  | nil => cases h
  | cons atom atoms ih =>
    rw [follow] at h
    cases hs : v.step atom with
    | error fault' =>
      rw [hs] at h
      cases h
      exact ⟨[], atom, atoms, v, rfl, rfl, .here, hs⟩
    | ok child =>
      rw [hs] at h
      obtain ⟨before, atom', after, w, rfl, rfl, hbefore, hfault⟩ := ih (graph_of_step hs ▸ hv) h
      refine ⟨atom :: before, atom', after, w, rfl, by simp; omega, ?_, hfault⟩
      rcases (step_eq_ok_iff_child hv).1 hs with ⟨index, hlt, rfl, hc⟩ | hc
      · exact .element hc hlt hbefore
      · exact .member hc hbefore

theorem hasPath_nil_iff : HasPath v [] w ↔ v = w :=
  ⟨fun h => by cases h; rfl, fun h => h ▸ .here⟩

theorem hasPath_append_iff : HasPath v (before ++ after) w ↔ ∃ u, HasPath v before u ∧ HasPath u after w := by
  induction before generalizing v with
  | nil => simp [hasPath_nil_iff]
  | cons atom before ih =>
    constructor
    · intro h
      rw [List.cons_append] at h
      cases h with
      | element hc hlt hrest =>
        obtain ⟨u, hu, hw⟩ := ih.1 hrest
        exact ⟨u, .element hc hlt hu, hw⟩
      | member hc hrest =>
        obtain ⟨u, hu, hw⟩ := ih.1 hrest
        exact ⟨u, .member hc hu, hw⟩
    · rintro ⟨u, hu, hw⟩
      cases hu with
      | element hc hlt hrest => exact .element hc hlt (ih.2 ⟨u, hrest, hw⟩)
      | member hc hrest => exact .member hc (ih.2 ⟨u, hrest, hw⟩)

/-- A single atom leads one step. -/
theorem hasPath_singleton_iff : HasPath v [atom] w ↔
    (∃ index < Pointer.indexLimit, atom = toString index ∧ v.elements[index]? = some w) ∨ (atom, w) ∈ v.members := by
  constructor
  · intro h
    cases h with
    | element hc hlt hrest =>
      obtain rfl := hasPath_nil_iff.1 hrest
      exact .inl ⟨_, hlt, rfl, hc⟩
    | member hc hrest =>
      obtain rfl := hasPath_nil_iff.1 hrest
      exact .inr hc
  · rintro (⟨index, hlt, rfl, hc⟩ | hc)
    · exact .element hc hlt .here
    · exact .member hc .here

theorem mem_members_of_isArray (h : v.isArray = true) : (key, child) ∉ v.members := by
  intro hmem
  cases h.symm.trans (not_isArray_of_mem_members hmem)

theorem elements_of_isObject (h : v.isObject = true) : v.elements[index]? = none := by
  unfold isObject at h
  unfold elements
  cases hn : v.node <;> simp [hn] at h <;> simp [Node.items]

/-! ### Places -/

/-- Where atoms lead to can be reached. -/
theorem HasPath.reaches (h : HasPath v atoms w) : w.graph = v.graph ∧ v.graph.Reaches v.id w.id := by
  have htrans : ∀ {g : Graph} {a b c : Nat}, g.Reaches a b → g.Reaches b c → g.Reaches a c := by
    intro g a b c hab hbc
    induction hbc with
    | root => exact hab
    | child _ hmem ih => exact .child ih hmem
  induction h with
  | here => exact ⟨rfl, .root⟩
  | @element v child w index atoms hc hlt hrest ih =>
    obtain ⟨id, hid, rfl⟩ := List.mem_map.mp (List.mem_of_getElem? hc)
    refine ⟨ih.1, htrans (.child .root ?_) ih.2⟩
    change id ∈ v.node.children
    cases hn : v.node <;> simp [hn, Node.items] at hid
    exact hid
  | @member v child w key atoms hc hrest ih =>
    obtain ⟨⟨key, id⟩, hid, heq⟩ := List.mem_map.mp hc
    cases heq
    refine ⟨ih.1, htrans (.child .root ?_) ih.2⟩
    change id ∈ v.node.children
    cases hn : v.node <;> simp [hn, Node.members] at hid
    · exact List.mem_map_of_mem (f := (·.2)) hid
    · exact List.mem_map_of_mem (f := (·.2)) hid

/-- One atom leads to each child, where arrays have no more elements than there are indices. -/
theorem exists_atom {id : Nat} (hsize : v.node.items.length ≤ Pointer.indexLimit) (h : id ∈ v.node.children) :
    ∃ atom, HasPath v [atom] (v.atNode id) := by
  cases hn : v.node with
  | array ids =>
    rw [hn] at h hsize
    obtain ⟨index, hindex⟩ := List.mem_iff_getElem?.mp h
    have hlt := (List.getElem?_eq_some_iff.mp hindex).1
    refine ⟨toString index, hasPath_singleton_iff.2 (.inl ⟨index, Nat.lt_of_lt_of_le hlt hsize, rfl, ?_⟩)⟩
    rw [getElem?_elements, at?, hn]
    exact congrArg (Option.map v.atNode) hindex
  | object members | reference members =>
    rw [hn] at h
    obtain ⟨⟨key, _⟩, hmem, rfl⟩ := List.mem_map.mp h
    refine ⟨key, hasPath_singleton_iff.2 (.inr ?_)⟩
    rw [Value.members, hn]
    exact List.mem_map_of_mem (f := fun m => (m.1, v.atNode m.2)) hmem
  | _ =>
    rw [hn] at h
    cases h

theorem exists_hasPath {id : Nat} (hsize : ∀ id, (root.graph.node id).items.length ≤ Pointer.indexLimit)
    (h : root.graph.Reaches root.id id) : ∃ atoms, HasPath root atoms (root.atNode id) := by
  induction h with
  | root => exact ⟨[], .here⟩
  | @child id child _ hmem ih =>
    obtain ⟨atoms, hatoms⟩ := ih
    obtain ⟨atom, hatom⟩ := exists_atom (v := root.atNode id) (hsize id) hmem
    exact ⟨atoms ++ [atom], hasPath_append_iff.2 ⟨_, hatoms, hatom⟩⟩

theorem resolve_eq_ok_iff_hasPath {p : Pointer} (hroot : root.graph.WellFormed) :
    p.resolve root = .ok v ↔ HasPath root p.atoms v := resolve_eq_ok_iff.trans (follow_eq_ok_iff hroot)

/-- A pointer that is one atom longer leads one step further. -/
theorem resolve_child_iff {p : Pointer} (hroot : root.graph.WellFormed) (h : p.resolve root = .ok v) :
    (p.child atom).resolve root = .ok w ↔
      (∃ index < Pointer.indexLimit, atom = toString index ∧ v.elements[index]? = some w) ∨ (atom, w) ∈ v.members := by
  rw [resolve_eq_ok_iff_hasPath hroot, Pointer.child, hasPath_append_iff, ← hasPath_singleton_iff]
  constructor
  · rintro ⟨u, hu, hw⟩
    cases h.symm.trans ((resolve_eq_ok_iff_hasPath hroot).2 hu)
    exact hw
  · intro hw
    exact ⟨v, (resolve_eq_ok_iff_hasPath hroot).1 h, hw⟩

end Value

/-- **Pointers follow the paths of a value.** A pointer designates the value that its atoms lead to. If they lead to
none, the pointer is undefined at the first atom that leads nowhere from where the ones before it lead. So a pointer
behind another one is followed from what the first designates; one more atom leads to the member of an object under
that key, and to the element of an array only if the atom is the decimal text of its index. Every node that can be
reached is designated by a pointer, and no other one. -/
theorem Pointer.resolve_paths {root : Value} (hroot : root.graph.WellFormed) :
    (∀ (p : Pointer) (v : Value), p.resolve root = .ok v ↔ root.HasPath p.atoms v) ∧
    (∀ p : Pointer, (∀ v, ¬root.HasPath p.atoms v) →
      ∃ before atom after v fault, p.atoms = before ++ atom :: after ∧ root.HasPath before v ∧
        v.step atom = .error fault ∧ p.resolve root = .error (.undefined p before.length fault)) ∧
    (∀ (p q : Pointer) (v : Value), (p ++ q).resolve root = .ok v ↔ ∃ u, p.resolve root = .ok u ∧ q.resolve u = .ok v) ∧
    (∀ (p : Pointer) (v : Value), p.resolve root = .ok v →
      (∀ key w, v.isObject = true → ((p.child key).resolve root = .ok w ↔ (key, w) ∈ v.members)) ∧
      (∀ atom w, v.isArray = true → ((p.child atom).resolve root = .ok w ↔
        ∃ index < indexLimit, atom = toString index ∧ v.elements[index]? = some w)) ∧
      (∀ index w, v.isArray = true → ((p.childIndex index).resolve root = .ok w ↔
        index < indexLimit ∧ v.elements[index]? = some w))) ∧
    ((∀ id, (root.graph.node id).items.length ≤ indexLimit) →
      ∀ id, root.graph.Reaches root.id id ↔ ∃ p : Pointer, p.resolve root = .ok (root.atNode id)) := by
  have hpath : ∀ {p : Pointer} {v : Value}, p.resolve root = .ok v ↔ root.HasPath p.atoms v :=
    Value.resolve_eq_ok_iff_hasPath hroot
  refine ⟨fun p v => hpath, fun p hnone => ?_, fun p q v => ?_, fun p v hv => ?_, fun hsize id => ?_⟩
  · cases hf : root.follow 0 p.atoms with
    | ok v => exact absurd ((Value.follow_eq_ok_iff hroot).1 hf) (hnone v)
    | error e =>
      obtain ⟨position, fault⟩ := e
      obtain ⟨before, atom, after, v, hatoms, rfl, hbefore, hfault⟩ := Value.follow_eq_error hroot hf
      refine ⟨before, atom, after, v, fault, hatoms, hbefore, hfault, ?_⟩
      rw [resolve, hf, Nat.zero_add]
  · rw [hpath]
    refine Value.hasPath_append_iff.trans (exists_congr fun u => ?_)
    rw [hpath]
    refine and_congr_right fun hu => ?_
    rw [Value.resolve_eq_ok_iff_hasPath (hu.reaches.1 ▸ hroot)]
  · have harray : ∀ {atom w}, v.isArray = true → ((p.child atom).resolve root = .ok w ↔
        ∃ index < indexLimit, atom = toString index ∧ v.elements[index]? = some w) := by
      intro atom w h
      rw [Value.resolve_child_iff hroot hv]
      exact or_iff_left (Value.mem_members_of_isArray h)
    refine ⟨fun key w h => ?_, fun atom w h => harray h, fun index w h => (harray h).trans ?_⟩
    · rw [Value.resolve_child_iff hroot hv]
      exact or_iff_right fun ⟨_, _, _, hc⟩ => by cases (Value.elements_of_isObject h).symm.trans hc
    · constructor
      · rintro ⟨index', hlt, heq, hc⟩
        obtain rfl := toString_injective heq
        exact ⟨hlt, hc⟩
      · rintro ⟨hlt, hc⟩
        exact ⟨index, hlt, rfl, hc⟩
  · constructor
    · intro hr
      obtain ⟨atoms, hatoms⟩ := Value.exists_hasPath hsize hr
      exact ⟨⟨atoms⟩, hpath.2 hatoms⟩
    · rintro ⟨p, hp⟩
      exact (hpath.1 hp).reaches.2

/-- In a knot every path goes on for ever; the text `01` is no index of its list, whose second element is the knot
itself. -/
theorem Pointer.resolve_knot : knot.graph.WellFormed ∧
    (⟨["list", "1", "self", "one"]⟩ : Pointer).resolve knot = .ok (knot.atNode 2) ∧
    (∀ w, (⟨["list", "01"]⟩ : Pointer).resolve knot ≠ .ok w) ∧
    ∀ id, knot.graph.Reaches knot.id id ↔ ∃ p : Pointer, p.resolve knot = .ok (knot.atNode id) := by
  have hwell : knot.graph.WellFormed := by decide
  have hsize : ∀ id, (knot.graph.node id).items.length ≤ indexLimit := by
    intro id
    rcases id with _ | _ | _ | id
    all_goals first | decide | simp [knot, Graph.node, Node.items]
  obtain ⟨hpath, -, -, hchild, hreaches⟩ := Pointer.resolve_paths hwell
  have hlist : (⟨["list"]⟩ : Pointer).resolve knot = .ok (knot.atNode 1) := rfl
  refine ⟨hwell, (hpath _ _).2 ?_, fun w hw => ?_, hreaches hsize⟩
  · have hself : knot.HasPath ["self", "one"] (knot.atNode 2) :=
      .member (.head _) (.member (.tail _ (.tail _ (.head _))) .here)
    have hsecond : (knot.atNode 1).elements[1]? = some knot := rfl
    have hlist : (knot.atNode 1).HasPath [toString 1, "self", "one"] (knot.atNode 2) :=
      .element hsecond (by decide) hself
    exact .member (.tail _ (.head _)) hlist
  · obtain ⟨index, -, htext, -⟩ := ((hchild _ _ hlist).2.1 "01" w rfl).1 hw
    have hindex : index = 1 := by rw [← decimal_toString index, ← htext]; rfl
    rw [hindex] at htext
    exact absurd htext (by decide)

end JsonSchema
