import JsonSchema.Proofs.Numeric
import JsonSchema.Proofs.Precision
import Mathlib.Algebra.Order.Group.MinMax

/-!
Multiples of an integer. A number counts as a multiple of a quantity if the quotient is an integer up to a tolerance of
`10^-9`, relative to the quotient. Quotient, rest and tolerance are rounded, all of them together by less than `2^-51`
of the quotient (`Double.isMultipleOf_bounds`). So multiples are accepted, and numbers below a thousand million are
accepted if and only if they are multiples; beyond, a rest of one is within the tolerance of a large quotient
(`Compiler.compileValue_multipleOf`).
-/

namespace JsonSchema

namespace Double

/-! ### Errors -/

section

variable {x y : Double} {a t : ℚ}

/-- The rounding of what is at most `Q`, where `Q` is not below one. -/
theorem Rounds.error_le {Q : ℚ} (h : x.Rounds a) (ha : |a| ≤ Q) : |x.value - a| ≤ Q / 2 ^ 53 + 1 / 2 ^ 100 := by
  have hleast : (2 : ℚ) ^ (-1075 : Int) ≤ 2 ^ (-100 : Int) := zpow_le_zpow_right₀ one_le_two (by decide)
  have hhundred : (2 : ℚ) ^ (-100 : Int) = 1 / 2 ^ 100 := by norm_num
  have hrelative : |a| / 2 ^ 53 ≤ Q / 2 ^ 53 := div_le_div_of_nonneg_right ha (by positivity)
  have herror := h.2
  rw [hhundred] at hleast
  linarith only [herror, hrelative, hleast]

theorem lt_two_zpow {c : ℚ} (h : c ≤ 2 ^ 70) : c < 2 ^ (1022 : Int) :=
  calc c ≤ 2 ^ 70 := h
    _ = 2 ^ (70 : Int) := (zpow_natCast 2 70).symm
    _ < 2 ^ (1022 : Int) := zpow_lt_zpow_right₀ one_lt_two (by decide)

/-- No integer is nearer than one that is not further than a half. -/
theorem abs_sub_le_of_half {k : Int} (h : |a - k| ≤ 1 / 2) (n : Int) : |a - k| ≤ |a - n| := by
  rcases eq_or_ne n k with rfl | hne
  · exact le_refl _
  · have hapart : (1 : ℚ) ≤ |(n : ℚ) - k| := by exact_mod_cast Int.one_le_abs (sub_ne_zero.mpr hne)
    have htriangle : |(n : ℚ) - k| ≤ |a - n| + |a - k| := by
      rw [abs_sub_comm a n]
      exact abs_sub_le _ _ _
    linarith

/-! The computed rest `d` of a quotient `t`, which is rounded to `x` and then to the integer `k`, itself rounded
to `r`. -/

section

variable {t x k r d Q : ℚ}

theorem quotient_error (hQ : 1 ≤ Q) (hx : |x - t| ≤ Q / 2 ^ 53 + 1 / 2 ^ 100) : |x - t| ≤ 11 / 10 * (Q / 2 ^ 53) := by
  linarith

theorem rest_error (hQ : 1 ≤ Q) (ht : |t| ≤ Q) (hx : |x - t| ≤ Q / 2 ^ 53 + 1 / 2 ^ 100) (hk : |x - k| ≤ 1 / 2)
    (hr : |r - k| ≤ |k| / 2 ^ 53 + 1 / 2 ^ 100) (hd : |d - (x - r)| ≤ |x - r| / 2 ^ 53 + 1 / 2 ^ 100) :
    |d - (x - k)| ≤ 21 / 10 * (Q / 2 ^ 53) := by
  have hkQ : |k| ≤ 151 / 100 * Q := by
    rw [abs_le] at *
    constructor <;> linarith
  have hrk : |r - k| ≤ 152 / 100 * (Q / 2 ^ 53) := by linarith
  have hxr : |x - r| ≤ 51 / 100 * Q := by
    rw [abs_le] at hk hrk ⊢
    constructor <;> linarith
  have hdr : |d - (x - r)| ≤ 52 / 100 * (Q / 2 ^ 53) := by linarith
  rw [abs_le] at hrk hdr ⊢
  constructor <;> linarith

/-- The computed tolerance `T` of a quotient, from the rounded tolerance `τ` and the rounded size `N`. -/
theorem tolerance_error {τ N T : ℚ} (hQ : 1 ≤ Q) (hτ : |τ - 1 / 10 ^ 9| ≤ 1 / 10 ^ 9 / 2 ^ 53 + 1 / 2 ^ 100)
    (hN : |N - Q| ≤ 11 / 10 * (Q / 2 ^ 53)) (hT : |T - τ * N| ≤ |τ * N| / 2 ^ 53 + 1 / 2 ^ 100) :
    |T - 1 / 10 ^ 9 * Q| ≤ 1 / 10 * (Q / 2 ^ 53) := by
  obtain ⟨hτl, hτu⟩ := abs_le.mp hτ
  obtain ⟨hNl, hNu⟩ := abs_le.mp hN
  have hNpos : 0 ≤ N := by linarith
  have hlow : (1 / 10 ^ 9 - 1 / 10 ^ 9 / 2 ^ 53 - 1 / 2 ^ 100) * N ≤ τ * N :=
    mul_le_mul_of_nonneg_right (by linarith) hNpos
  have hhigh : τ * N ≤ (1 / 10 ^ 9 + 1 / 10 ^ 9 / 2 ^ 53 + 1 / 2 ^ 100) * N :=
    mul_le_mul_of_nonneg_right (by linarith) hNpos
  have hpos : 0 ≤ τ * N := mul_nonneg (by linarith) hNpos
  rw [abs_of_nonneg hpos] at hT
  rw [abs_le] at hT ⊢
  constructor <;> linarith

end

end

end Double

/-! ### The test -/

/-- An integer up to a tolerance, which is relative to the number, but not below what it is for one. -/
def NearInteger (tolerance t : ℚ) : Prop := |t - round t| ≤ tolerance * max |t| 1

/-- The larger of a size and one follows the size. -/
theorem abs_max_sub_max_le (x t : ℚ) : |max |x| 1 - max |t| 1| ≤ |x - t| :=
  (abs_max_sub_max_le_abs _ _ _).trans (abs_abs_sub_abs_le x t)

/-- What the errors of rest and tolerance come to. -/
theorem nearInteger_of_errors {t x d T : ℚ} {k : Int} (hk : |x - k| ≤ 1 / 2)
    (hx : |x - t| ≤ 11 / 10 * (max |t| 1 / 2 ^ 53)) (hd : |d - (x - k)| ≤ 21 / 10 * (max |t| 1 / 2 ^ 53))
    (hT : |T - 1 / 10 ^ 9 * max |t| 1| ≤ 1 / 10 * (max |t| 1 / 2 ^ 53)) :
    (NearInteger (1 / 10 ^ 9 - 1 / 2 ^ 51) t → |d| ≤ T) ∧ (|d| ≤ T → NearInteger (1 / 10 ^ 9 + 1 / 2 ^ 51) t) := by
  unfold NearInteger
  have hQ : 1 ≤ max |t| 1 := le_max_right _ _
  generalize max |t| 1 = Q at *
  have hT := abs_le.mp hT
  have hsplit : |d| ≤ |d - (x - k)| + |x - k| ∧ |x - k| ≤ |d - (x - k)| + |d| :=
    ⟨by simpa using abs_add_le (d - (x - k)) (x - k), by
      rw [abs_sub_comm d]
      simpa using abs_add_le (x - k - d) d⟩
  constructor
  · intro hnear
    have hnearest : |x - k| ≤ |x - t| + |t - round t| :=
      (Double.abs_sub_le_of_half hk (round t)).trans (abs_sub_le _ _ _)
    linarith
  · intro hle
    have hnearest : |t - round t| ≤ |x - t| + |x - k| := by
      rw [abs_sub_comm x t]
      exact (round_le t k).trans (abs_sub_le _ _ _)
    linarith

section

open Double

variable {x y : Double}

theorem rounds_multipleTolerance : multipleTolerance.Rounds (1 / 10 ^ 9) := by
  have h := rounds_ofRatio false 1 (Nat.pow_pos (by decide) : 0 < Nat.pow 10 9) (lt_two_zpow (by norm_num))
  norm_num [signed] at h ⊢
  exact h

theorem value_ofInt_one : (ofInt 1).isFinite = true ∧ (ofInt 1).value = 1 := by
  have h := isInt_ofInt (i := 1) (by decide) (exists_isInt (by decide))
  exact ⟨h.1, by rw [value_of_isInt h, Int.cast_one]⟩

theorem isMultipleOf_eq (hx : x.isFinite = true) (hy : y.isFinite = true) (hpos : 0 < y.value) :
    isMultipleOf x y =
      ((x.div y).sub (x.div y).round).abs.le (multipleTolerance.mul ((x.div y).abs.max (ofInt 1))) := by
  have hne : y.eq (zero false) = false := by
    rw [Bool.eq_false_iff, Ne, eq_iff_of_finite hy rfl, signedUnits_zero]
    intro hzero
    rw [value, hzero, Int.cast_zero, zero_div] at hpos
    exact lt_irrefl 0 hpos
  unfold isMultipleOf
  rw [hne, hx]
  rfl

/-- **The test is off by less than `2^-51` of the quotient.** -/
theorem isMultipleOf_bounds (hx : x.isFinite = true) (hy : y.isFinite = true) (hpos : 0 < y.value)
    (hsize : |x.value / y.value| ≤ 2 ^ 64) :
    (NearInteger (1 / 10 ^ 9 - 1 / 2 ^ 51) (x.value / y.value) → isMultipleOf x y = true) ∧
      (isMultipleOf x y = true → NearInteger (1 / 10 ^ 9 + 1 / 2 ^ 51) (x.value / y.value)) := by
  rw [isMultipleOf_eq hx hy hpos]
  have hquotient := rounds_div hx hy hpos.ne' (lt_two_zpow (hsize.trans (by norm_num)))
  generalize x.value / y.value = t at hsize hquotient ⊢
  generalize x.div y = q at hquotient ⊢
  have hQ : 1 ≤ max |t| 1 := le_max_right _ _
  have htQ : |t| ≤ max |t| 1 := le_max_left _ _
  have hsize : max |t| 1 ≤ 2 ^ 64 := max_le hsize (by norm_num)
  have hqt := hquotient.error_le htQ
  have herror := quotient_error hQ hqt
  have hmax := (abs_max_sub_max_le q.value t).trans herror
  have hq : |q.value| ≤ 2 ^ 65 := by
    have htriangle := abs_add_le (q.value - t) t
    rw [sub_add_cancel] at htriangle
    linarith only [htriangle, herror, htQ, hsize]
  obtain ⟨k, hround, hk⟩ := exists_rounds_round hquotient.1 (lt_two_zpow (by linarith only [hq]))
  have hr := hround.error_le le_rfl
  have hqr : |q.value - q.round.value| ≤ 2 ^ 70 := by
    rw [abs_sub_comm] at hr
    have hsum := (abs_sub_le q.value k q.round.value).trans (add_le_add hk hr)
    have hkq : |(k : ℚ)| ≤ |q.value| + 1 / 2 := by
      have htriangle := abs_sub_le (k : ℚ) q.value 0
      rw [abs_sub_comm (k : ℚ) q.value, sub_zero, sub_zero] at htriangle
      linarith only [htriangle, hk]
    linarith only [hsum, hkq, hq]
  have hrest := rounds_sub hquotient.1 hround.1 (lt_two_zpow hqr)
  obtain ⟨hfinite, hN⟩ := isFinite_max (isFinite_abs hquotient.1) value_ofInt_one.1
  rw [value_abs, value_ofInt_one.2] at hN
  have hτ := rounds_multipleTolerance.error_le (Q := 1 / 10 ^ 9) (by norm_num)
  have hτN : |multipleTolerance.value * (q.abs.max (ofInt 1)).value| ≤ 2 ^ 70 := by
    have hsmall : |multipleTolerance.value| ≤ 1 := by
      rw [abs_le] at hτ ⊢
      constructor <;> linarith only [hτ.1, hτ.2]
    have hlarge : |max |q.value| 1| ≤ 2 ^ 65 := by
      rw [abs_of_pos (lt_max_of_lt_right zero_lt_one)]
      exact max_le hq (by norm_num)
    rw [hN, abs_mul]
    linarith [mul_le_mul hsmall hlarge (abs_nonneg _) zero_le_one]
  have hT := rounds_mul rounds_multipleTolerance.1 hfinite (lt_two_zpow hτN)
  rw [le_iff_value (isFinite_abs hrest.1) hT.1, value_abs]
  have hNQ : |(q.abs.max (ofInt 1)).value - max |t| 1| ≤ 11 / 10 * (max |t| 1 / 2 ^ 53) := by rwa [hN]
  exact nearInteger_of_errors hk herror (rest_error hQ htQ hqt hk hr (hrest.error_le le_rfl))
    (tolerance_error hQ hτ hNQ (hT.error_le le_rfl))

end

/-! ### Integers -/

section

variable {v q : Int} {tolerance : ℚ}

/-- The quotient of a multiple is an integer. -/
theorem nearInteger_of_dvd (htolerance : 0 ≤ tolerance) (hq : q ≠ 0) (h : q ∣ v) :
    NearInteger tolerance ((v : ℚ) / q) := by
  obtain ⟨n, rfl⟩ := h
  have hquotient : ((q * n : Int) : ℚ) / q = n := by
    rw [Int.cast_mul, mul_div_cancel_left₀ _ (by exact_mod_cast hq)]
  rw [NearInteger, hquotient, round_intCast, sub_self, abs_zero]
  exact mul_nonneg htolerance (zero_le_one.trans (le_max_right _ _))

/-- A rest of one is beyond the tolerance of small integers. -/
theorem dvd_of_nearInteger (hq : 0 < q) (hv : tolerance * |(v : ℚ)| < 1) (hqlt : tolerance * q < 1)
    (h : NearInteger tolerance ((v : ℚ) / q)) : q ∣ v := by
  have hpos : (0 : ℚ) < q := by exact_mod_cast hq
  refine ⟨round ((v : ℚ) / q), by_contra fun hne => ?_⟩
  unfold NearInteger at h
  generalize round ((v : ℚ) / q) = n at h hne
  have hrest : (1 : ℚ) ≤ |(v : ℚ) - q * n| := by exact_mod_cast Int.one_le_abs (sub_ne_zero.mpr hne)
  have hscaled : |(v : ℚ) - q * n| = |(v : ℚ) / q - n| * q := by
    rw [← abs_of_pos hpos, ← abs_mul, sub_mul, abs_of_pos hpos, div_mul_cancel₀ _ hpos.ne', mul_comm (n : ℚ)]
  have hsize : tolerance * max |(v : ℚ) / q| 1 * q < 1 := by
    rw [mul_assoc, max_mul_of_nonneg _ _ hpos.le, one_mul, abs_div, abs_of_pos hpos, div_mul_cancel₀ _ hpos.ne']
    rcases max_choice |(v : ℚ)| (q : ℚ) with hmax | hmax <;> rwa [hmax]
  have hle := mul_le_mul_of_nonneg_right h hpos.le
  linarith

end

/-! ### Schemas of multiples -/

namespace Value

variable {v : Value} {q : Int64}

/-- An object whose only keyword asks for multiples of an integer. -/
structure IsMultiples (v : Value) (q : Int64) : Prop where
  object : v.kind = .object
  only : ∀ m ∈ v.members, m.1 = "multipleOf" ∧ m.2.asInteger? = some q
  quantity : (v.get? "multipleOf").bind asInteger? = some q

namespace IsMultiples

theorem isNumeric (h : v.IsMultiples q) (hq : 0 < q) : v.IsNumeric where
  object := h.object
  only m hm := by
    rw [(h.only m hm).1]
    decide
  bound m hm _ := ⟨_, asDouble?_of_asInteger? (h.only m hm).2⟩
  flag m hm hkey := by
    rw [(h.only m hm).1] at hkey
    exact absurd hkey (by decide)
  quantity m hm _ := by
    refine isPositive_iff.2 ⟨_, asDouble?_of_asInteger? (h.only m hm).2, ?_⟩
    exact (Double.zero_lt_ofInt_iff (Double.natAbs_toInt_lt q)).2 (Int64.lt_iff_toInt_lt.mp hq)

/-- The document denotes the number nearest to its quantity. -/
theorem numeric_eq (h : v.IsMultiples q) : Keyword.numeric v = [.multipleOf (Double.ofInt q.toInt)] := by
  have hnone : ∀ key, key ≠ "multipleOf" → Keyword.number? v key = none := fun key hkey => by
    rw [Keyword.number?, Option.eq_none_iff_forall_not_mem.mpr fun _ hw =>
      hkey (h.only _ (mem_members_of_get? hw)).1]
    rfl
  obtain ⟨w, hw, hwq⟩ := Option.bind_eq_some_iff.mp h.quantity
  have hquantity : Keyword.number? v "multipleOf" = some (Double.ofInt q.toInt) := by
    rw [Keyword.number?, hw, Option.bind_some, asDouble?_of_asInteger? hwq]
  rw [Keyword.numeric, hnone "minimum" (by decide), hnone "maximum" (by decide), hquantity]
  rfl

end IsMultiples

end Value

theorem verdict_multipleOf_iff {quantity x : Double} {below : SchemaId → Value → Verdict} {v : Value}
    (hx : v.asDouble? = some x) :
    (Constraint.multipleOf quantity).verdict below v = .valid ↔ isMultipleOf x quantity = true := by
  simp [Constraint.verdict, Constraint.holds, Verdict.ofBool_eq_valid_iff, hx]

/-- A document of multiples becomes a schema, which tests the numbers nearest to value and quantity. -/
theorem Compiler.compileValue_isMultiples {c : Compiler} {v : Value} {uri? : Option String} {document : Document}
    (hd : Document.given v uri? = .ok document) {q : Int64} (hv : v.IsMultiples q) (hq : 0 < q)
    (hdepth : 1 ≤ c.limits.maxDepth) (store : Store) :
    ∃ s after, c.compileValue v uri? store = (.ok s, after) ∧ ∀ maxDepth x i, x.asInteger? = some i →
      (s.validate maxDepth x = [] ↔ isMultipleOf (Double.ofInt i.toInt) (Double.ofInt q.toInt) = true) := by
  obtain ⟨rfl, heq⟩ := compileValue_eq c store hd
  obtain ⟨s, after, hrun, hconstraints⟩ := compile_numeric (hv.isNumeric hq) hdepth store
  refine ⟨s, after, heq.trans hrun, fun maxDepth x i hx => ?_⟩
  rw [validate_eq_nil_iff, hconstraints, hv.numeric_eq, List.forall_mem_singleton,
    verdict_multipleOf_iff (Value.asDouble?_of_asInteger? hx)]

/-- The test of integers that are floating-point numbers. -/
theorem isMultipleOf_ofInt {v q : Int} (hv : v.natAbs < 2 ^ 64) (hv' : ∃ x : Double, x.IsInt v) (hq : q.natAbs < 2 ^ 64)
    (hq' : ∃ x : Double, x.IsInt q) (hpos : 0 < q) :
    (NearInteger (1 / 10 ^ 9 - 1 / 2 ^ 51) (v / q) → isMultipleOf (Double.ofInt v) (Double.ofInt q) = true) ∧
      (isMultipleOf (Double.ofInt v) (Double.ofInt q) = true → NearInteger (1 / 10 ^ 9 + 1 / 2 ^ 51) (v / q)) := by
  have hvint := Double.isInt_ofInt hv hv'
  have hqint := Double.isInt_ofInt hq hq'
  have hvvalue := Double.value_of_isInt hvint
  have hqvalue := Double.value_of_isInt hqint
  have hone : (1 : ℚ) ≤ |(q : ℚ)| := by exact_mod_cast Int.one_le_abs hpos.ne'
  have hsize : |(v : ℚ) / q| ≤ 2 ^ 64 := by
    rw [abs_div, div_le_iff₀ (by linarith)]
    have habs : |(v : ℚ)| ≤ 2 ^ 64 := by
      rw [← Int.cast_abs, Int.abs_eq_natAbs, Int.cast_natCast]
      exact_mod_cast hv.le
    linarith
  rw [← hvvalue, ← hqvalue]
  refine isMultipleOf_bounds hvint.1 hqint.1 ?_ ?_
  · rw [hqvalue]
    exact_mod_cast hpos
  · rwa [hvvalue, hqvalue]

/-- **Multiples of an integer are decided up to a tolerance.** A document of multiples of an integer becomes a schema.
Of the integers that are floating-point numbers, as the quantity is, this accepts those whose quotient is an integer
up to the tolerance of `10^-9`; computing it is off by no more than `2^-51`, relative to the quotient as the tolerance
is. So it accepts every multiple, and below a thousand million, less a millionth of that, nothing else. -/
theorem Compiler.compileValue_multipleOf {c : Compiler} {v : Value} {uri? : Option String} {document : Document}
    (hd : Document.given v uri? = .ok document) {q : Int64} (hv : v.IsMultiples q) (hq : 0 < q)
    (hexact : ∃ y : Double, y.IsInt q.toInt) (hdepth : 1 ≤ c.limits.maxDepth) (store : Store) :
    ∃ s after, c.compileValue v uri? store = (.ok s, after) ∧
      ∀ maxDepth x i, x.asInteger? = some i → (∃ y : Double, y.IsInt i.toInt) →
        (NearInteger (1 / 10 ^ 9 - 1 / 2 ^ 51) (i.toInt / q.toInt) → s.validate maxDepth x = []) ∧
        (s.validate maxDepth x = [] → NearInteger (1 / 10 ^ 9 + 1 / 2 ^ 51) (i.toInt / q.toInt)) ∧
        (q.toInt ∣ i.toInt → s.validate maxDepth x = []) ∧
        (i.toInt.natAbs ≤ 999999000 → q.toInt ≤ 999999000 → (s.validate maxDepth x = [] ↔ q.toInt ∣ i.toInt)) := by
  obtain ⟨s, after, hrun, hvalidate⟩ := compileValue_isMultiples hd hv hq hdepth store
  refine ⟨s, after, hrun, fun maxDepth x i hx hi => ?_⟩
  rw [hvalidate maxDepth x i hx]
  have hpos : 0 < q.toInt := Int64.lt_iff_toInt_lt.mp hq
  obtain ⟨haccepts, hnear⟩ :=
    isMultipleOf_ofInt (Double.natAbs_toInt_lt i) hi (Double.natAbs_toInt_lt q) hexact hpos
  have hmultiple : q.toInt ∣ i.toInt → isMultipleOf (Double.ofInt i.toInt) (Double.ofInt q.toInt) = true :=
    fun hdvd => haccepts (nearInteger_of_dvd (by norm_num) hpos.ne' hdvd)
  refine ⟨haccepts, hnear, hmultiple, fun hismall hqsmall => ⟨fun h => ?_, hmultiple⟩⟩
  have hisize : |(i.toInt : ℚ)| ≤ 999999000 := by
    rw [← Int.cast_abs, Int.abs_eq_natAbs, Int.cast_natCast]
    exact_mod_cast hismall
  have hqsize : (q.toInt : ℚ) ≤ 999999000 := by exact_mod_cast hqsmall
  refine dvd_of_nearInteger hpos ?_ ?_ (hnear h)
  · linarith
  · linarith

/-- The multiples of an integer. -/
def multiplesOf (q : Int64) : Value := ⟨⟨0, #[.object [("multipleOf", 1)], .integer q]⟩, 0⟩

theorem isMultiples_multiplesOf (q : Int64) : (multiplesOf q).IsMultiples q where
  object := rfl
  only m hm := by
    obtain rfl := List.mem_singleton.mp hm
    exact ⟨rfl, rfl⟩
  quantity := rfl

/-- Six is a multiple of three, and seven is not. -/
theorem compileValue_multiplesOf_three : (multiplesOf 3).IsMultiples 3 ∧ 1 ≤ lonelyCompiler.limits.maxDepth ∧
    ∃ s after, lonelyCompiler.compileValue (multiplesOf 3) none (.start 2) = (.ok s, after) ∧
      ∀ maxDepth, s.validate maxDepth (.scalar 0 (.integer 6)) = [] ∧
        s.validate maxDepth (.scalar 0 (.integer 7)) ≠ [] := by
  have hgiven : Document.given (multiplesOf 3) none = .ok (.anonymous (multiplesOf 3)) := rfl
  have hmultiples := isMultiples_multiplesOf 3
  have hdepth : 1 ≤ lonelyCompiler.limits.maxDepth := by decide
  have hnumber : ∀ i : Int, i.natAbs < 2 ^ 53 → ∃ y : Double, y.IsInt i := fun i => Double.exists_isInt
  obtain ⟨s, after, hrun, hvalidate⟩ := Compiler.compileValue_multipleOf hgiven hmultiples (by decide)
    (hnumber _ (by decide)) hdepth (.start 2)
  refine ⟨hmultiples, hdepth, s, after, hrun, fun maxDepth => ⟨?_, fun hnil => ?_⟩⟩
  · exact (hvalidate maxDepth (.scalar 0 (.integer 6)) 6 rfl (hnumber _ (by decide))).2.2.1 (by decide)
  · have hiff := (hvalidate maxDepth (.scalar 0 (.integer 7)) 7 rfl (hnumber _ (by decide))).2.2.2
    exact absurd ((hiff (by decide) (by decide)).1 hnil) (by decide)

/-- A large odd number is accepted as a multiple of two: its quotient is a half away from an integer, and the tolerance
of a quotient of this size is a little more. -/
theorem compileValue_multiplesOf_two : (∃ y : Double, y.IsInt 1000000001) ∧ (∃ y : Double, y.IsInt 2) ∧
    ∃ s after, lonelyCompiler.compileValue (multiplesOf 2) none (.start 2) = (.ok s, after) ∧
      ¬(2 : Int) ∣ (1000000001 : Int64).toInt ∧ ∀ maxDepth, s.validate maxDepth (.scalar 0 (.integer 1000000001)) = [] := by
  have hgiven : Document.given (multiplesOf 2) none = .ok (.anonymous (multiplesOf 2)) := rfl
  have hdepth : 1 ≤ lonelyCompiler.limits.maxDepth := by decide
  obtain ⟨s, after, hrun, hvalidate⟩ := Compiler.compileValue_isMultiples hgiven (isMultiples_multiplesOf 2)
    (by decide) hdepth (.start 2)
  refine ⟨Double.exists_isInt (by decide), Double.exists_isInt (by decide), s, after, hrun, by decide, fun maxDepth => ?_⟩
  refine (hvalidate maxDepth (.scalar 0 (.integer 1000000001)) 1000000001 rfl).2 ?_
  decide +kernel

end JsonSchema
