import JsonSchema.Double
import Mathlib.Algebra.Order.Ring.Nat

/-!
The floating-point number nearest to an integer. How far a finite number is from an integer is counted in units of
`2^-1074` (`Double.distance`), and no finite number is nearer to a 64-bit integer than the one that the integer is
rounded to (`Double.ofInt_nearest`): at the exponent of that number the mantissa is rounded to the nearest, and the
numbers of lower exponents end below the integer. So an integer that is a floating-point number is rounded to itself
(`Double.isInt_ofInt`), the order of two integers is never turned around (`Double.signedUnits_mono`), no negative
integer is rounded to zero, and below `2^53` no two integers are rounded to the same number
(`Double.isUnambiguous_of_lt`).
-/

namespace JsonSchema.Double

/-- How far a finite number is from an integer, in units of `2^-1074`. -/
def distance (x : Double) (i : Int) : Nat := (x.signedUnits - i * one).natAbs

/-- The number is the integer. -/
def IsInt (x : Double) (i : Int) : Prop := x.isFinite = true ∧ x.signedUnits = i * one

instance (x : Double) (i : Int) : Decidable (x.IsInt i) := inferInstanceAs (Decidable (_ ∧ _))

/-! ### The nearest multiple -/

theorem roundHalfEven_cases (num den : Nat) :
    roundHalfEven num den = num / den ∧ 2 * (num % den) ≤ den ∨
      roundHalfEven num den = num / den + 1 ∧ den ≤ 2 * (num % den) := by
  unfold roundHalfEven
  dsimp only
  split
  · next h => exact .inl ⟨rfl, Nat.le_of_lt h⟩
  · next h =>
    split
    · next h' => exact .inr ⟨rfl, Nat.le_of_lt h'⟩
    · next h' =>
      split
      · exact .inl ⟨rfl, by omega⟩
      · exact .inr ⟨rfl, by omega⟩

theorem roundHalfEven_one (n : Nat) : roundHalfEven n 1 = n := by
  rcases roundHalfEven_cases n 1 with ⟨h, -⟩ | ⟨-, h⟩
  · rw [h, Nat.div_one]
  · omega

/-- No multiple is nearer than the rounded one. -/
theorem roundHalfEven_nearest (num : Nat) {den : Nat} (hden : 0 < den) (k : Nat) :
    ((roundHalfEven num den * den : Nat) - num : Int).natAbs ≤ ((k * den : Nat) - num : Int).natAbs := by
  have hdiv : num / den * den + num % den = num := by rw [Nat.mul_comm]; exact Nat.div_add_mod num den
  have hmod := Nat.mod_lt num hden
  have hk : k * den ≤ num / den * den ∨ num / den * den + den ≤ k * den := by
    rcases Nat.lt_or_ge (num / den) k with hlt | hle
    · rw [← Nat.succ_mul]
      exact .inr (Nat.mul_le_mul_right den hlt)
    · exact .inl (Nat.mul_le_mul_right den hle)
  rcases roundHalfEven_cases num den with ⟨h, hhalf⟩ | ⟨h, hhalf⟩
  · rw [h]
    omega
  · rw [h, Nat.succ_mul]
    omega

/-! ### The parts of the number nearest to an integer -/

/-- The last bit that is kept of a whole number is 52 bits below its first one. -/
theorem lastBit_one {n : Nat} (hn : 0 < n) : lastBit n 1 = n.log2 - 52 := by
  have hreaches : Nat.pow 2 n.log2 ≤ n := Nat.log2_self_le (Nat.pos_iff_ne_zero.mp hn)
  have hone : (1 : Nat).log2 = 0 := by decide
  unfold lastBit
  simp only [hone, Int.natCast_zero, Int.sub_zero, Int.natCast_nonneg, if_true, Int.toNat_natCast, Nat.one_mul,
    hreaches]
  omega

theorem units_mul (m k : Nat) {e : Int} (he : -1074 ≤ e) : units (m * 2 ^ k) e = units m (e + k) := by
  have hexponent : (e + k + 1074).toNat = k + (e + 1074).toNat := by omega
  unfold units
  rw [hexponent]
  change m * 2 ^ k * 2 ^ _ = m * 2 ^ _
  rw [Nat.pow_add, Nat.mul_assoc]

theorem units_one : units 1 0 = one := by decide +kernel

theorem units_zero (m : Nat) : units m 0 = m * one := by
  rw [← units_one, units, units, Nat.one_mul]

/-- A mantissa of 53 bits, or fewer at the least exponent, or the next one, gives a number of the same size. -/
theorem exists_ofParts (negative : Bool) {m : Nat} {e : Int} (hm : 2 ^ 52 ≤ m ∨ e = -1074) (hm' : m ≤ 2 ^ 53)
    (he : -1074 ≤ e) (he' : e ≤ 970) :
    ∃ m' e' h, ofParts negative m e = .finite negative m' e' h ∧ units m' e' = units m e := by
  unfold ofParts
  split
  · next h => exact ⟨m, e, h, rfl, rfl⟩
  · next h =>
    have hm : m = 2 ^ 52 * 2 := by
      rcases Nat.lt_or_ge m (2 ^ 53) with hlt | hge
      · exact absurd ⟨hlt, he, by omega, hm⟩ h
      · omega
    subst hm
    have hhalf : Canonical (2 ^ 52 * 2 / 2) (e + 1) := by
      rw [Nat.mul_div_cancel _ Nat.two_pos]
      exact ⟨by decide, by omega, by omega, .inl (Nat.le_refl _)⟩
    rw [dif_pos hhalf]
    refine ⟨_, _, hhalf, rfl, ?_⟩
    rw [Nat.mul_div_cancel _ Nat.two_pos]
    exact (units_mul (2 ^ 52) 1 he).symm

/-- A number of a lower exponent than that of a mantissa of 53 bits is not above it. -/
theorem units_le_of_lt {m m' : Nat} {e e' : Int} (h : Canonical m' e') (he : e' < e) (hm : 2 ^ 52 ≤ m) :
    units m' e' ≤ units m e := by
  obtain ⟨hlt, hleast, -, -⟩ := h
  have hlt : m' ≤ 2 ^ 52 * 2 ^ 1 := Nat.le_of_lt hlt
  calc units m' e' ≤ units (2 ^ 52 * 2 ^ 1) e' := Nat.mul_le_mul_right _ hlt
    _ = units (2 ^ 52) (e' + 1) := units_mul (2 ^ 52) 1 hleast
    _ ≤ units m (e' + 1) := Nat.mul_le_mul_right _ hm
    _ ≤ units m e := Nat.mul_le_mul_left _ (Nat.pow_le_pow_right Nat.two_pos (by omega))

/-- A whole number of at most 53 bits is the number with a mantissa of 53 bits that it is a multiple of. -/
theorem exists_parts_of_log2_le {n : Nat} (hn : 0 < n) (hlog : n.log2 ≤ 52) :
    ∃ k : Nat, n.log2 + k = 52 ∧ 2 ^ 52 ≤ n * 2 ^ k ∧ n * 2 ^ k < 2 ^ 53 ∧ units (n * 2 ^ k) (-k) = n * one := by
  obtain ⟨k, hk⟩ : ∃ k, n.log2 + k = 52 := ⟨52 - n.log2, by omega⟩
  refine ⟨k, hk, ?_, ?_, ?_⟩
  · rw [← hk, Nat.pow_add]
    exact Nat.mul_le_mul_right _ (Nat.log2_self_le (Nat.pos_iff_ne_zero.mp hn))
  · rw [show 53 = n.log2 + 1 + k by omega, Nat.pow_add]
    exact Nat.mul_lt_mul_of_pos_right Nat.lt_log2_self (Nat.two_pow_pos k)
  · rw [units_mul n k (by omega), Int.add_left_neg, units_zero]

section

variable {n k : Nat}

theorem units_natCast (m k : Nat) : units m k = m * 2 ^ k * one := by
  have h := units_mul m k (e := 0) (by decide)
  rw [Int.zero_add, units_zero] at h
  exact h.symm

theorem ofRatio_one (negative : Bool) (hn : 0 < n) :
    ofRatio negative n 1 = ofParts negative
      (if 0 ≤ lastBit n 1 then roundHalfEven n (1 * Nat.pow 2 (lastBit n 1).toNat)
        else roundHalfEven (n * Nat.pow 2 (-lastBit n 1).toNat) 1) (lastBit n 1) := by
  unfold ofRatio
  rw [if_neg (Nat.pos_iff_ne_zero.mp hn)]

/-- Of a whole number of at most 53 bits no bit is dropped. -/
theorem ofRatio_of_short (negative : Bool) (hn : 0 < n) (hk : n.log2 + k = 52) :
    ofRatio negative n 1 = ofParts negative (n * 2 ^ k) (-k) := by
  have he : lastBit n 1 = -k := by rw [lastBit_one hn]; omega
  rw [ofRatio_one negative hn, he]
  split
  · next hzero =>
    obtain rfl : k = 0 := by omega
    rw [Int.natCast_zero, Int.neg_zero, Int.toNat_zero]
    simp [roundHalfEven_one]
  · rw [Int.neg_neg, Int.toNat_natCast, roundHalfEven_one]
    rfl

/-! A longer whole number loses its last `k` bits, and what is left is rounded. -/

theorem ofRatio_of_long (negative : Bool) (hk : n.log2 = k + 52) :
    ofRatio negative n 1 = ofParts negative (roundHalfEven n (2 ^ k)) k := by
  have hn : 0 < n := Nat.pos_of_ne_zero fun h => by simp [h] at hk
  have he : lastBit n 1 = k := by rw [lastBit_one hn]; omega
  rw [ofRatio_one negative hn, he, if_pos (Int.natCast_nonneg k), Int.toNat_natCast, Nat.one_mul]
  rfl

theorem two_pow_le_of_long (hk : n.log2 = k + 52) : 2 ^ 52 * 2 ^ k ≤ n := by
  rw [← Nat.pow_add, Nat.add_comm, ← hk]
  exact Nat.log2_self_le fun h => by simp [h] at hk

/-- The mantissa has 53 bits, or is the least with one more. -/
theorem roundHalfEven_of_long (hk : n.log2 = k + 52) :
    2 ^ 52 ≤ roundHalfEven n (2 ^ k) ∧ roundHalfEven n (2 ^ k) ≤ 2 ^ 53 := by
  have hden : 0 < 2 ^ k := Nat.two_pow_pos k
  have hge : 2 ^ 52 ≤ n / 2 ^ k := (Nat.le_div_iff_mul_le hden).mpr (two_pow_le_of_long hk)
  have hlt : n / 2 ^ k < 2 ^ 53 := by
    rw [Nat.div_lt_iff_lt_mul hden, ← Nat.pow_add]
    exact Nat.lt_of_lt_of_eq Nat.lt_log2_self (by congr 1; omega)
  rcases roundHalfEven_cases n (2 ^ k) with ⟨h, -⟩ | ⟨h, -⟩ <;> omega

/-- No number at the exponent is nearer. -/
theorem units_roundHalfEven_nearest (n k j : Nat) :
    ((units (roundHalfEven n (2 ^ k)) k : Int) - (n * one : Nat)).natAbs ≤
      ((j * 2 ^ k * one : Nat) - (n * one : Nat) : Int).natAbs := by
  have h := roundHalfEven_nearest n (Nat.two_pow_pos k) j
  rw [units_natCast]
  push_cast at h ⊢
  rw [← Int.sub_mul, ← Int.sub_mul, Int.natAbs_mul, Int.natAbs_mul]
  exact Nat.mul_le_mul_right _ h

/-- No number at all is nearer. -/
theorem nearest_of_long (hk : n.log2 = k + 52) {m : Nat} {e : Int} (h : Canonical m e) :
    ((units (roundHalfEven n (2 ^ k)) k : Int) - (n * one : Nat)).natAbs ≤
      ((units m e : Int) - (n * one : Nat)).natAbs := by
  rcases Int.lt_or_le e k with hbelow | habove
  · -- what has a lower exponent is below the least mantissa of 53 bits, and that is below the integer
    have hle := units_le_of_lt h hbelow (Nat.le_refl (2 ^ 52))
    have hleast := units_roundHalfEven_nearest n k (2 ^ 52)
    have hint : 2 ^ 52 * 2 ^ k * one ≤ n * one := Nat.mul_le_mul_right _ (two_pow_le_of_long hk)
    rw [units_natCast] at hle
    generalize 2 ^ 52 * 2 ^ k * one = least at hle hleast hint
    generalize n * one = whole at hleast hint ⊢
    omega
  · -- what has the exponent or a higher one is a multiple
    obtain ⟨j, rfl⟩ : ∃ j : Nat, e = k + j := ⟨(e - k).toNat, by omega⟩
    have hmultiple : units m (k + j) = m * 2 ^ j * 2 ^ k * one := by
      rw [← units_mul m j (by omega), units_natCast]
    rw [hmultiple]
    exact units_roundHalfEven_nearest n k (m * 2 ^ j)

/-- The parts that a positive integer is rounded to are those of a number which no other is nearer than. -/
theorem exists_nearest_parts (hn : 0 < n) (hn' : n < 2 ^ 64) :
    ∃ m e, (2 ^ 52 ≤ m ∧ m ≤ 2 ^ 53 ∧ -1074 ≤ e ∧ e ≤ 970) ∧
      (∀ negative, ofRatio negative n 1 = ofParts negative m e) ∧
      ∀ m' e', Canonical m' e' →
        ((units m e : Int) - (n * one : Nat)).natAbs ≤ ((units m' e' : Int) - (n * one : Nat)).natAbs := by
  have hlog : n.log2 < 64 := (Nat.log2_lt (Nat.pos_iff_ne_zero.mp hn)).mpr hn'
  rcases Nat.lt_or_ge 52 n.log2 with hlong | hshort
  · obtain ⟨k, hk⟩ : ∃ k, n.log2 = k + 52 := ⟨n.log2 - 52, by omega⟩
    obtain ⟨hge, hle⟩ := roundHalfEven_of_long hk
    exact ⟨roundHalfEven n (2 ^ k), k, ⟨hge, hle, by omega, by omega⟩, fun negative => ofRatio_of_long negative hk,
      fun m' e' h => nearest_of_long hk h⟩
  · obtain ⟨k, hk, hge, hlt, hunits⟩ := exists_parts_of_log2_le hn hshort
    refine ⟨n * 2 ^ k, -k, ⟨hge, Nat.le_of_lt hlt, by omega, by omega⟩,
      fun negative => ofRatio_of_short negative hn hk, fun m' e' _ => ?_⟩
    rw [hunits, Int.sub_self, Int.natAbs_zero]
    exact Nat.zero_le _

end

/-! ### The number nearest to an integer -/

section

variable {i j : Int} {x y : Double}

theorem one_pos : 0 < one := by decide +kernel

theorem signedUnits_finite (negative : Bool) {m : Nat} {e : Int} (h : Canonical m e) :
    (finite negative m e h).signedUnits = if negative then -(units m e : Int) else units m e := by
  cases negative <;> rfl

/-- A number is as far from an integer as their sizes are apart, or further if the signs differ. -/
theorem le_distance_finite (negative : Bool) {m : Nat} {e : Int} (h : Canonical m e) :
    ((units m e : Int) - (i.natAbs * one : Nat)).natAbs ≤ (finite negative m e h).distance i := by
  have hsize : (i * one).natAbs = i.natAbs * one := by rw [Int.natAbs_mul, Int.natAbs_natCast]
  unfold distance
  rw [signedUnits_finite, ← hsize]
  generalize i * one = whole
  split <;> omega

theorem distance_finite {m : Nat} {e : Int} (h : Canonical m e) :
    (finite (i < 0) m e h).distance i = ((units m e : Int) - (i.natAbs * one : Nat)).natAbs := by
  unfold distance
  rw [signedUnits_finite, Int.natCast_mul]
  by_cases hi : i < 0
  · rw [decide_eq_true hi, if_pos rfl, Int.ofNat_natAbs_of_nonpos (Int.le_of_lt hi), Int.neg_mul]
    generalize i * one = whole
    omega
  · rw [decide_eq_false hi, if_neg Bool.false_ne_true, Int.natAbs_of_nonneg (Int.not_lt.mp hi)]

/-- An integer of 64 bits is rounded to a finite number, and no finite number is nearer to it. -/
theorem ofInt_nearest (hi : i.natAbs < 2 ^ 64) :
    (ofInt i).isFinite = true ∧ ∀ y : Double, y.isFinite = true → (ofInt i).distance i ≤ y.distance i := by
  have hof : ∃ m e h, ofInt i = .finite (i < 0) m e h ∧ ∀ m' e', Canonical m' e' →
      ((units m e : Int) - (i.natAbs * one : Nat)).natAbs ≤ ((units m' e' : Int) - (i.natAbs * one : Nat)).natAbs := by
    rcases Nat.eq_zero_or_pos i.natAbs with hzero | hpos
    · obtain rfl := Int.natAbs_eq_zero.mp hzero
      refine ⟨0, -1074, by decide, rfl, fun m' e' _ => ?_⟩
      rw [units, Nat.zero_mul, Int.natAbs_zero, Nat.zero_mul]
      exact Nat.zero_le _
    · obtain ⟨m, e, ⟨hm, hm', he, he'⟩, hratio, hnearest⟩ := exists_nearest_parts hpos hi
      obtain ⟨m₁, e₁, h, hparts, hunits⟩ := exists_ofParts (i < 0) (.inl hm) hm' he he'
      exact ⟨m₁, e₁, h, (hratio _).trans hparts, fun m' e' h' => hunits ▸ hnearest m' e' h'⟩
  obtain ⟨m, e, h, hofInt, hnearest⟩ := hof
  rw [hofInt]
  refine ⟨rfl, fun y hy => ?_⟩
  cases y with
  | nan | infinity => cases hy
  | finite negative m' e' h' =>
    rw [distance_finite]
    exact Nat.le_trans (hnearest m' e' h') (le_distance_finite negative h')

theorem distance_eq_zero (hx : x.isFinite = true) : x.distance i = 0 ↔ x.IsInt i := by
  unfold distance IsInt
  rw [Int.natAbs_eq_zero, Int.sub_eq_zero]
  exact ⟨fun h => ⟨hx, h⟩, fun h => h.2⟩

theorem IsInt.unique (h : x.IsInt i) (h' : x.IsInt j) : i = j :=
  Int.eq_of_mul_eq_mul_right (by have := one_pos; omega) (h.2.symm.trans h'.2)

/-- Integers below `2^53` in size are numbers. -/
theorem exists_isInt (hi : i.natAbs < 2 ^ 53) : ∃ x : Double, x.IsInt i := by
  rcases Nat.eq_zero_or_pos i.natAbs with hzero | hpos
  · obtain rfl := Int.natAbs_eq_zero.mp hzero
    exact ⟨zero false, (distance_eq_zero rfl).1 (by decide +kernel)⟩
  · have hlog := (Nat.log2_lt (Nat.pos_iff_ne_zero.mp hpos)).mpr hi
    obtain ⟨k, hk, hge, hlt, hunits⟩ := exists_parts_of_log2_le hpos (Nat.le_of_lt_succ hlog)
    have hcanonical : Canonical (i.natAbs * 2 ^ k) (-k) := ⟨hlt, by omega, by omega, .inl hge⟩
    refine ⟨.finite (i < 0) _ _ hcanonical, (distance_eq_zero rfl).1 ?_⟩
    rw [distance_finite, hunits, Int.sub_self, Int.natAbs_zero]

/-- An integer that is a number is rounded to it. -/
theorem isInt_ofInt (hi : i.natAbs < 2 ^ 64) (h : ∃ x : Double, x.IsInt i) : (ofInt i).IsInt i := by
  obtain ⟨hfinite, hnearest⟩ := ofInt_nearest hi
  obtain ⟨x, hx⟩ := h
  have hle := hnearest x hx.1
  rw [(distance_eq_zero hx.1).2 hx, Nat.le_zero] at hle
  exact (distance_eq_zero hfinite).1 hle

end

/-! ### Equality of numbers -/

section

variable {x y z : Double} {i j : Int}

/-- Finite numbers are equal if they are the same number of units, infinities if they have the same sign. -/
theorem eq_iff : x.eq y = true ↔
    x.isFinite = true ∧ y.isFinite = true ∧ x.signedUnits = y.signedUnits ∨
      ∃ negative, x = .infinity negative ∧ y = .infinity negative := by
  cases x with
  | nan => simp [eq, isFinite]
  | infinity negative =>
    cases y with
    | nan | finite => simp [eq, isFinite]
    | infinity other => simp [eq, isFinite, eq_comm (a := negative)]
  | finite negative m e h =>
    cases y with
    | nan | infinity => simp [eq, isFinite]
    | finite other m' e' h' =>
      have hunits : (finite negative m e h).eq (finite other m' e' h') = true ↔
          (finite negative m e h).signedUnits = (finite other m' e' h').signedUnits := beq_iff_eq
      rw [hunits]
      refine ⟨fun heq => .inl ⟨rfl, rfl, heq⟩, fun heq => ?_⟩
      rcases heq with ⟨-, -, heq⟩ | ⟨_, hinfinite, -⟩
      · exact heq
      · cases hinfinite

theorem eq_refl (h : x ≠ .nan) : x.eq x = true := by
  cases x with
  | nan => exact absurd rfl h
  | infinity negative => exact eq_iff.2 (.inr ⟨negative, rfl, rfl⟩)
  | finite => exact eq_iff.2 (.inl ⟨rfl, rfl, rfl⟩)

theorem eq_symm (h : x.eq y = true) : y.eq x = true := by
  rcases eq_iff.1 h with ⟨hx, hy, heq⟩ | ⟨negative, hx, hy⟩
  · exact eq_iff.2 (.inl ⟨hy, hx, heq.symm⟩)
  · exact eq_iff.2 (.inr ⟨negative, hy, hx⟩)

theorem eq_trans (h : x.eq y = true) (h' : y.eq z = true) : x.eq z = true := by
  rcases eq_iff.1 h with ⟨hx, hy, heq⟩ | ⟨negative, rfl, rfl⟩
  · rcases eq_iff.1 h' with ⟨-, hz, heq'⟩ | ⟨_, rfl, -⟩
    · exact eq_iff.2 (.inl ⟨hx, hz, heq.trans heq'⟩)
    · cases hy
  · rcases eq_iff.1 h' with ⟨hy, -⟩ | ⟨_, heq, rfl⟩
    · cases hy
    · cases heq
      exact h

/-- A number that is equal to the one nearest to an integer is as near. -/
theorem nearest_of_eq (hi : i.natAbs < 2 ^ 64) (h : (ofInt i).eq x = true) (hy : y.isFinite = true) :
    x.distance i ≤ y.distance i := by
  obtain ⟨hfinite, hnearest⟩ := ofInt_nearest hi
  rcases eq_iff.1 h with ⟨-, -, heq⟩ | ⟨negative, hinfinite, -⟩
  · have hdistance := hnearest y hy
    rwa [distance, heq] at hdistance
  · rw [hinfinite] at hfinite
    cases hfinite

/-- An integer that is a number is equal to that number only. -/
theorem ofInt_eq_iff (hi : i.natAbs < 2 ^ 64) (h : ∃ y : Double, y.IsInt i) : (ofInt i).eq x = true ↔ x.IsInt i := by
  have hint := isInt_ofInt hi h
  refine ⟨fun heq => ?_, fun hx => eq_iff.2 (.inl ⟨hint.1, hx.1, hint.2.trans hx.2.symm⟩)⟩
  rcases eq_iff.1 heq with ⟨-, hx, hunits⟩ | ⟨_, hinfinite, -⟩
  · exact ⟨hx, hunits.symm.trans hint.2⟩
  · have hfinite := hint.1
    rw [hinfinite] at hfinite
    cases hfinite

/-- Integers from `2^53` on are rounded to numbers of that size. -/
theorem natAbs_lt_of_eq (hi : i.natAbs < 2 ^ 64) (h : (ofInt i).eq x = true)
    (hx : x.signedUnits.natAbs < 2 ^ 53 * one) : i.natAbs < 2 ^ 53 := by
  refine Nat.lt_of_not_le fun hge => ?_
  have hge : 2 ^ 53 * one ≤ i.natAbs * one := Nat.mul_le_mul_right _ hge
  have hcanonical : Canonical (2 ^ 52) 1 := by decide
  have hunits : units (2 ^ 52) 1 = 2 ^ 53 * one := by
    rw [show (1 : Int) = 0 + (1 : Nat) from rfl, ← units_mul (2 ^ 52) 1 (by decide), units_zero, ← Nat.pow_add]
  have hle := nearest_of_eq (y := .finite (i < 0) (2 ^ 52) 1 hcanonical) hi h rfl
  have hsize : (i * one).natAbs = i.natAbs * one := by rw [Int.natAbs_mul, Int.natAbs_natCast]
  rw [distance_finite, hunits, distance, ← hsize] at hle
  rw [← hsize] at hge
  generalize i * one = whole at hle hge
  generalize 2 ^ 53 * one = bound at hle hge hx
  omega

end

/-! ### The order of numbers -/

section

variable {x y : Double} {i j : Int}

theorem lt_iff (hx : x.isFinite = true) (hy : y.isFinite = true) : x.lt y = true ↔ x.signedUnits < y.signedUnits := by
  cases x with
  | nan | infinity => cases hx
  | finite negative m e h =>
    cases y with
    | nan | infinity => cases hy
    | finite negative' m' e' h' => exact decide_eq_true_iff

theorem eq_iff_of_finite (hx : x.isFinite = true) (hy : y.isFinite = true) :
    x.eq y = true ↔ x.signedUnits = y.signedUnits := by
  refine eq_iff.trans ⟨fun h => ?_, fun h => .inl ⟨hx, hy, h⟩⟩
  rcases h with ⟨-, -, h⟩ | ⟨negative, rfl, -⟩
  · exact h
  · cases hx

theorem le_iff (hx : x.isFinite = true) (hy : y.isFinite = true) : x.le y = true ↔ x.signedUnits ≤ y.signedUnits := by
  rw [le, Bool.or_eq_true, lt_iff hx hy, eq_iff_of_finite hx hy]
  omega

/-- Rounding never turns the order of two integers around: each of two numbers in the other order would be as near to
one of the integers as the number that this integer is rounded to. -/
theorem signedUnits_mono (hi : i.natAbs < 2 ^ 64) (hj : j.natAbs < 2 ^ 64) (h : i ≤ j) :
    (ofInt i).signedUnits ≤ (ofInt j).signedUnits := by
  rcases Int.lt_or_eq_of_le h with hlt | rfl
  · obtain ⟨hfi, hni⟩ := ofInt_nearest hi
    obtain ⟨hfj, hnj⟩ := ofInt_nearest hj
    have hnearest_i := hni _ hfj
    have hnearest_j := hnj _ hfi
    have hscaled : i * one < j * one := Int.mul_lt_mul_of_pos_right hlt (by have := one_pos; omega)
    unfold distance at hnearest_i hnearest_j
    generalize i * one = low at hnearest_i hscaled
    generalize j * one = high at hnearest_j hscaled
    omega
  · exact Int.le_refl _

/-- Integers that are rounded to the same number count as equal. -/
theorem ofInt_le_ofInt_iff (hi : i.natAbs < 2 ^ 64) (hj : j.natAbs < 2 ^ 64) :
    (ofInt i).le (ofInt j) = true ↔ i ≤ j ∨ (ofInt i).eq (ofInt j) = true := by
  obtain ⟨hfi, -⟩ := ofInt_nearest hi
  obtain ⟨hfj, -⟩ := ofInt_nearest hj
  rw [le_iff hfi hfj, eq_iff_of_finite hfi hfj]
  refine ⟨fun hle => ?_, fun h => ?_⟩
  · rcases Int.le_total i j with hij | hji
    · exact .inl hij
    · exact .inr (Int.le_antisymm hle (signedUnits_mono hj hi hji))
  · rcases h with hij | heq
    · exact signedUnits_mono hi hj hij
    · exact Int.le_of_eq heq

theorem ofInt_lt_ofInt_iff (hi : i.natAbs < 2 ^ 64) (hj : j.natAbs < 2 ^ 64) :
    (ofInt i).lt (ofInt j) = true ↔ i < j ∧ ¬(ofInt i).eq (ofInt j) = true := by
  obtain ⟨hfi, -⟩ := ofInt_nearest hi
  obtain ⟨hfj, -⟩ := ofInt_nearest hj
  rw [lt_iff hfi hfj, eq_iff_of_finite hfi hfj]
  refine ⟨fun hlt => ⟨?_, Int.ne_of_lt hlt⟩, fun ⟨hij, hne⟩ => ?_⟩
  · refine Int.lt_of_not_ge fun hji => ?_
    have hle := signedUnits_mono hj hi hji
    omega
  · exact Int.lt_iff_le_and_ne.mpr ⟨signedUnits_mono hi hj (Int.le_of_lt hij), hne⟩

end

/-! ### The sign of an integer -/

theorem signedUnits_zero : (zero false).signedUnits = 0 := by decide +kernel

theorem zero_le_iff {x : Double} (hx : x.isFinite = true) : (zero false).le x = true ↔ 0 ≤ x.signedUnits := by
  rw [le_iff rfl hx, signedUnits_zero]

theorem zero_lt_iff {x : Double} (hx : x.isFinite = true) : (zero false).lt x = true ↔ 0 < x.signedUnits := by
  rw [lt_iff rfl hx, signedUnits_zero]

/-- Rounding keeps the sign of an integer: one, zero or minus one is a number, and nearer to it than numbers with
another sign. -/
theorem sign_ofInt {i : Int} (hi : i.natAbs < 2 ^ 64) : (ofInt i).signedUnits.sign = i.sign := by
  have hsmall : i.sign.natAbs < 2 ^ 53 := by
    have : i.sign.natAbs ≤ 1 := by rcases Int.sign_trichotomy i with h | h | h <;> rw [h] <;> decide
    omega
  obtain ⟨-, hnearest⟩ := ofInt_nearest hi
  obtain ⟨y, hy, hunits⟩ := exists_isInt hsmall
  have hle := hnearest y hy
  have hone := one_pos
  unfold distance at hle
  rw [hunits] at hle
  rcases Int.lt_trichotomy i 0 with hneg | rfl | hpos
  · have hbelow : i * one ≤ -1 * one := Int.mul_le_mul_of_nonneg_right (by omega) (Int.natCast_nonneg _)
    rw [Int.sign_eq_neg_one_of_neg hneg] at hle ⊢
    generalize i * one = whole at hle hbelow
    generalize one = unit at hle hbelow hone
    exact Int.sign_eq_neg_one_of_neg (by omega)
  · rw [Int.sign_zero, Int.zero_mul] at hle
    rw [show (ofInt 0).signedUnits = 0 by omega]
  · have habove : 1 * one ≤ i * one := Int.mul_le_mul_of_nonneg_right (by omega) (Int.natCast_nonneg _)
    rw [Int.sign_eq_one_of_pos hpos] at hle ⊢
    generalize i * one = whole at hle habove
    generalize one = unit at hle habove hone
    exact Int.sign_eq_one_of_pos (by omega)

/-- An integer is above zero if and only if its floating-point number is. -/
theorem zero_lt_ofInt_iff {i : Int} (hi : i.natAbs < 2 ^ 64) : (zero false).lt (ofInt i) = true ↔ 0 < i := by
  rw [zero_lt_iff (ofInt_nearest hi).1, ← Int.sign_eq_one_iff_pos, sign_ofInt hi, Int.sign_eq_one_iff_pos]

theorem zero_le_ofInt_iff {i : Int} (hi : i.natAbs < 2 ^ 64) : (zero false).le (ofInt i) = true ↔ 0 ≤ i := by
  rw [zero_le_iff (ofInt_nearest hi).1, ← Int.sign_nonneg_iff, sign_ofInt hi, Int.sign_nonneg_iff]

/-! ### Numbers that several integers are rounded to -/

/-- No two integers of 64 bits are rounded to the number. -/
def IsUnambiguous (x : Double) : Prop :=
  ∀ i j : Int64, (ofInt i.toInt).eq x = true → (ofInt j.toInt).eq x = true → i = j

theorem natAbs_toInt_lt (i : Int64) : i.toInt.natAbs < 2 ^ 64 := by
  have := i.le_toInt
  have := i.toInt_lt
  omega

/-- Below `2^53` in size every integer is rounded to itself only. -/
theorem isUnambiguous_of_lt {x : Double} (hx : x.signedUnits.natAbs < 2 ^ 53 * one) : x.IsUnambiguous := by
  have hint : ∀ i : Int64, (ofInt i.toInt).eq x = true → x.IsInt i.toInt := fun i hi =>
    (ofInt_eq_iff (natAbs_toInt_lt i) (exists_isInt (natAbs_lt_of_eq (natAbs_toInt_lt i) hi hx))).1 hi
  exact fun i j hi hj => Int64.toInt_inj.mp ((hint i hi).unique (hint j hj))

end JsonSchema.Double
