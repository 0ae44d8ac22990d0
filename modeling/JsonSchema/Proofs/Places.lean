import JsonSchema.Pointer.Resolve
import JsonSchema.Proofs.WellFormed

/-!
Places of values. An atom leads from a value to one child at most (`Value.child?`), and a list of atoms to one value
at most (`Value.below?`): at an array the atom counts as a decimal number, so this is defined for more atoms than
pointers may hold. What a pointer designates is below the root (`below?_of_resolve`), and so is what is found by
adding the name of a member or the number of an element. The converse holds step by step (`resolve_child`) where
keys are distinct and arrays have no more elements than there are indices.
-/

namespace JsonSchema

/-- The number that an atom stands for, if its characters are digits. -/
def Pointer.decimal (atom : String) : Nat := Nat.ofDigitChars 10 atom.toList 0

theorem Pointer.decimal_toString (n : Nat) : Pointer.decimal (toString n) = n := by
  unfold Pointer.decimal
  rw [Nat.toString_eq_ofList_toDigits, String.toList_ofList]
  exact Nat.ofDigitChars_toDigits (by decide) (by decide)

/-- The decimal text of a number begins with a zero for zero alone. -/
theorem Pointer.head?_toDigits_ne_zero {n : Nat} (hn : n ≠ 0) : (Nat.toDigits 10 n).head? ≠ some '0' := by
  have hdigit : ∀ d < 10, d ≠ 0 → d.digitChar ≠ '0' := by decide
  induction n using Nat.strongRecOn with
  | ind n ih =>
    by_cases hlt : n < 10
    · rw [Nat.toDigits_of_lt_base hlt, List.head?_cons]
      exact fun h => hdigit n hlt hn (Option.some.inj h)
    · obtain ⟨c, rest, hc⟩ := List.exists_cons_of_ne_nil (Nat.toDigits_ne_nil (n := n / 10) (b := 10))
      have hdiv := ih (n / 10) (by omega) (by omega)
      rw [hc] at hdiv
      rw [Nat.toDigits_of_base_le (by decide) (by omega), hc]
      exact hdiv

/-- The decimal text of an index is an atom that stands for it. -/
theorem Pointer.index?_toString {n : Nat} (hn : n < Pointer.indexLimit) : Pointer.index? (toString n) = some n := by
  have htext : (toString n).toList = Nat.toDigits 10 n := by rw [Nat.toString_eq_ofList_toDigits, String.toList_ofList]
  have hempty : (Nat.toDigits 10 n).isEmpty = false := by simp [Nat.toDigits_ne_nil]
  have hdigits : (Nat.toDigits 10 n).all Char.isDigit = true :=
    List.all_eq_true.mpr fun c hc => Nat.isDigit_of_mem_toDigits (by decide) (by decide) hc
  have hzero : (decide (1 < (Nat.toDigits 10 n).length) && (Nat.toDigits 10 n).head? == some '0') = false := by
    by_cases h : n = 0
    · rw [h]
      rfl
    · simp [head?_toDigits_ne_zero h]
  have hvalue : (Nat.toDigits 10 n).foldl (fun n c => 10 * n + (c.toNat - '0'.toNat)) 0 = n :=
    Nat.ofDigitChars_eq_foldl.symm.trans Nat.ofDigitChars_ten_toDigits
  rw [index?, htext, hempty, hdigits, hzero, hvalue]
  simp [hn]

theorem Pointer.index?_eq_some {atom : String} {n : Nat} (h : Pointer.index? atom = some n) :
    Pointer.decimal atom = n := by
  unfold Pointer.index? at h
  dsimp only at h
  split at h
  · cases h
  · split at h
    · cases h
    · split at h
      · rw [← Option.some.inj h]
        exact Nat.ofDigitChars_eq_foldl
      · cases h

namespace Value

variable {v child root : Value} {atom : String} {atoms : List String}

/-- The child of a value that an atom designates. -/
def child? (v : Value) (atom : String) : Option Value :=
  if v.isArray then v.at? (Pointer.decimal atom) else v.get? atom

/-- The value that atoms designate below a root. -/
def below? (root : Value) (atoms : List String) : Option Value := atoms.foldlM child? root

theorem below?_append (h : root.below? atoms = some v) (atom : String) :
    root.below? (atoms ++ [atom]) = v.child? atom := by
  unfold below? at h ⊢
  rw [List.foldlM_append, h]
  exact bind_pure (v.child? atom)

theorem child?_of_get? (h : v.get? atom = some child) : v.child? atom = some child := by
  have harray : v.isArray = false := by
    unfold get? at h
    cases hn : v.node <;> simp [hn, Node.members] at h <;> simp [isArray, hn]
  rw [child?, harray]
  exact h

theorem isArray_of_at? {index : Nat} (h : v.at? index = some child) : v.isArray = true := by
  unfold at? at h
  cases hn : v.node <;> simp [hn, Node.items] at h
  simp [isArray, hn]

theorem child?_of_at? {index : Nat} (h : v.at? index = some child) : v.child? (toString index) = some child := by
  rw [child?, if_pos (isArray_of_at? h), Pointer.decimal_toString, h]

theorem step_eq_ok_iff : v.step atom = .ok child ↔
    (∃ index, Pointer.index? atom = some index ∧ v.at? index = some child) ∨ v.get? atom = some child := by
  unfold step
  cases hn : v.node with
  | array ids =>
    have hget : v.get? atom = none := by rw [get?, hn]; rfl
    rw [hget]
    cases Pointer.index? atom with
    | none => simp
    | some index => cases hat : v.at? index <;> simp [hat]
  | object members | reference members =>
    have hat : ∀ index, v.at? index = none := fun index => by rw [at?, hn]; rfl
    cases v.get? atom <;> simp [hat]
  | _ =>
    have hat : ∀ index, v.at? index = none := fun index => by rw [at?, hn]; rfl
    have hget : v.get? atom = none := by rw [get?, hn]; rfl
    simp [hat, hget]

theorem child?_of_step (h : v.step atom = .ok child) : v.child? atom = some child := by
  rcases step_eq_ok_iff.1 h with ⟨index, hindex, hc⟩ | hc
  · rw [child?, if_pos (isArray_of_at? hc), Pointer.index?_eq_some hindex, hc]
  · exact child?_of_get? hc

theorem below?_of_follow {position : Nat} (h : v.follow position atoms = .ok child) : v.below? atoms = some child := by
  induction atoms generalizing v position with
  | nil =>
    cases h
    rfl
  | cons atom atoms ih =>
    rw [follow] at h
    split at h
    · next v' hs =>
      rw [below?, List.foldlM_cons, child?_of_step hs]
      exact ih h
    · cases h

/-- What a pointer designates is below the root. -/
theorem below?_of_resolve {p : Pointer} (h : p.resolve root = .ok v) : root.below? p.atoms = some v := by
  unfold Pointer.resolve at h
  split at h
  · next hf =>
    cases h
    exact below?_of_follow hf
  · cases h

/-! ### Designation -/

/-- The member of a well-formed object under a key is the one that stands there. -/
theorem get?_of_mem_members {w : Value} {key : String} (hw : v.graph.WellFormed) (h : (key, w) ∈ v.members) :
    v.get? key = some w := by
  obtain ⟨⟨k, id⟩, hid, heq⟩ := List.mem_map.mp h
  cases heq
  have hl : v.node.members.lookup key = some id := lookup_of_mem (hw.nodup_keys v.id) hid
  rw [Value.get?, hl]
  rfl

theorem mem_members_of_get? {w : Value} {key : String} (h : v.get? key = some w) : (key, w) ∈ v.members := by
  obtain ⟨id, hid, rfl⟩ := Option.map_eq_some_iff.mp h
  exact List.mem_map.mpr ⟨(key, id), mem_of_lookup hid, rfl⟩

theorem at?_of_mem_zipIdx {w : Value} {index : Nat} (h : (w, index) ∈ v.elements.zipIdx) :
    v.at? index = some w := by
  rw [List.mem_zipIdx_iff_getElem?] at h
  rw [Value.at?]
  rw [Value.elements, List.getElem?_map] at h
  exact h

theorem graph_of_get? (h : v.get? atom = some child) : child.graph = v.graph := by
  obtain ⟨id, -, rfl⟩ := Option.map_eq_some_iff.mp h
  rfl

theorem graph_of_at? {index : Nat} (h : v.at? index = some child) : child.graph = v.graph := by
  obtain ⟨id, -, rfl⟩ := Option.map_eq_some_iff.mp h
  rfl

theorem lt_of_at? {index : Nat} (h : v.at? index = some child) : index < v.node.items.length := by
  obtain ⟨id, hid, -⟩ := Option.map_eq_some_iff.mp h
  exact (List.getElem?_eq_some_iff.mp hid).1

theorem step_of_get? (h : v.get? atom = some child) : v.step atom = .ok child := step_eq_ok_iff.2 (.inr h)

theorem step_of_at? {index : Nat} (h : v.at? index = some child) (hi : index < Pointer.indexLimit) :
    v.step (toString index) = .ok child := step_eq_ok_iff.2 (.inl ⟨index, Pointer.index?_toString hi, h⟩)

theorem follow_append {position : Nat} (h : root.follow position atoms = .ok v) (hs : v.step atom = .ok child) :
    root.follow position (atoms ++ [atom]) = .ok child := by
  induction atoms generalizing root position with
  | nil =>
    cases h
    simp [follow, hs]
  | cons a atoms ih =>
    rw [follow] at h
    rw [List.cons_append, follow]
    cases ha : root.step a with
    | error fault => simp [ha] at h
    | ok next =>
      rw [ha] at h
      exact ih h

theorem resolve_eq_ok_iff {p : Pointer} : p.resolve root = .ok v ↔ root.follow 0 p.atoms = .ok v := by
  unfold Pointer.resolve
  cases root.follow 0 p.atoms <;> simp

/-- A step from what a pointer designates leads to what the longer pointer designates. -/
theorem resolve_child {p : Pointer} (h : p.resolve root = .ok v) (hs : v.step atom = .ok child) :
    (p.child atom).resolve root = .ok child :=
  resolve_eq_ok_iff.2 (follow_append (resolve_eq_ok_iff.1 h) hs)

end Value

end JsonSchema
