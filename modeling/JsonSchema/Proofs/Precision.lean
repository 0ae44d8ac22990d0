import JsonSchema.Proofs.Rounding
import Mathlib.Data.Int.Log
import Mathlib.Data.Rat.Floor
import Mathlib.Tactic.FieldSimp
import Mathlib.Tactic.Linarith
import Mathlib.Tactic.Positivity

/-!
How far the result of floating-point arithmetic is from the exact one. The operations compute on exact integers and
round once, so their results are known as soon as it is known how far a rounded ratio is from the ratio
(`Double.rounds_ofRatio`): by half of the last bit that is kept. The mantissa has 53 bits, so this is `2^-53` of the
ratio, or `2^-1075` where the exponent is the least one (`Double.Rounds`).
-/

namespace JsonSchema.Double

/-- A finite number as a rational; other values count as zero. -/
def value (x : Double) : ℚ := x.signedUnits / one

/-- A finite number that is no further from a rational than rounding takes it. -/
def Rounds (x : Double) (a : ℚ) : Prop := x.isFinite = true ∧ |x.value - a| ≤ |a| / 2 ^ 53 + 2 ^ (-1075 : Int)

/-- A size with its sign. -/
def signed (negative : Bool) (a : ℚ) : ℚ := if negative then -a else a

/-! ### Values -/

section

variable {x : Double} {negative : Bool} {m : Nat} {e : Int} {a b : ℚ}

theorem one_pos' : (0 : ℚ) < one := by exact_mod_cast one_pos

theorem two_zpow_pos (e : Int) : (0 : ℚ) < 2 ^ e := zpow_pos (by decide) e

theorem cast_two_pow (n : Nat) : ((Nat.pow 2 n : Nat) : ℚ) = 2 ^ (n : Int) := by
  rw [Nat.pow_eq, Nat.cast_pow, Nat.cast_ofNat, zpow_natCast]

/-- The units of a number by the power of two that its mantissa counts. -/
theorem units_div_one (m : Nat) (he : -1074 ≤ e) : (units m e : ℚ) / one = m * 2 ^ e := by
  have hexponent : ((e + 1074).toNat : Int) = e + ((0 : Int) + 1074).toNat := by omega
  have hone : (one : ℚ) = 2 ^ (((0 : Int) + 1074).toNat : Int) := by
    rw [← units_one, units, Nat.one_mul, cast_two_pow]
  rw [units, Nat.cast_mul, cast_two_pow, hone, hexponent, zpow_add₀ two_ne_zero, ← mul_assoc,
    mul_div_cancel_right₀ _ (two_zpow_pos _).ne']

theorem value_finite (negative : Bool) {m : Nat} {e : Int} (h : Canonical m e) :
    (finite negative m e h).value = signed negative ((units m e : ℚ) / one) := by
  rw [value, signedUnits_finite, signed]
  split
  · rw [Int.cast_neg, Int.cast_natCast, neg_div]
  · rw [Int.cast_natCast]

theorem signed_zero (negative : Bool) : signed negative 0 = 0 := by
  cases negative <;> simp [signed]

theorem value_zero (negative : Bool) : (zero negative).value = 0 := by
  rw [zero, value_finite, units, Nat.zero_mul, Nat.cast_zero, zero_div, signed_zero]

theorem abs_signed (negative : Bool) (a : ℚ) : |signed negative a| = |a| := by
  cases negative <;> simp [signed]

theorem signed_sub (negative : Bool) (a b : ℚ) : signed negative a - signed negative b = signed negative (a - b) := by
  cases negative
  · rfl
  · simp only [signed, if_true]
    ring

theorem signed_div (n n' : Bool) (a b : ℚ) : signed n a / signed n' b = signed (n != n') (a / b) := by
  cases n <;> cases n' <;> simp [signed, neg_div, div_neg]

theorem signed_mul (n n' : Bool) (a b : ℚ) : signed n a * signed n' b = signed (n != n') (a * b) := by
  cases n <;> cases n' <;> simp [signed]

theorem value_of_isInt {i : Int} (h : x.IsInt i) : x.value = i := by
  rw [value, h.2, Int.cast_mul, Int.cast_natCast, mul_div_cancel_right₀ _ one_pos'.ne']

end

/-! ### Rounding a ratio -/

section

variable {num den : Nat}

/-- The nearest integer is half of one away. -/
theorem abs_roundHalfEven_sub_le (num : Nat) (hden : 0 < den) : |(roundHalfEven num den : ℚ) - num / den| ≤ 1 / 2 := by
  have hd : (0 : ℚ) < den := by exact_mod_cast hden
  have hdiv : (num / den : Nat) * (den : ℚ) + (num % den : Nat) = num := by exact_mod_cast Nat.div_add_mod' num den
  have hratio : (num : ℚ) / den = (num / den : Nat) + (num % den : Nat) / den := by
    rw [eq_comm, ← hdiv]
    field_simp
  rcases roundHalfEven_cases num den with ⟨h, hhalf⟩ | ⟨h, hhalf⟩
  · have hle : ((num % den : Nat) : ℚ) / den ≤ 1 / 2 := by
      rw [div_le_div_iff₀ hd two_pos]
      exact_mod_cast (by omega : num % den * 2 ≤ 1 * den)
    have hge : (0 : ℚ) ≤ (num % den : Nat) / den := by positivity
    rw [h, hratio, abs_le]
    constructor <;> linarith
  · have hge : 1 / 2 ≤ ((num % den : Nat) : ℚ) / den := by
      rw [div_le_div_iff₀ two_pos hd]
      exact_mod_cast (by omega : 1 * den ≤ num % den * 2)
    have hle : ((num % den : Nat) : ℚ) / den ≤ 1 := by
      rw [div_le_one hd]
      exact_mod_cast Nat.le_of_lt (Nat.mod_lt num hden)
    rw [h, hratio, abs_le]
    push_cast
    constructor <;> linarith

/-! What is between two integers is rounded to one that is not outside. -/

theorem le_roundHalfEven (hden : 0 < den) {low : Nat} (h : (low : ℚ) ≤ num / den) : low ≤ roundHalfEven num den := by
  rw [le_div_iff₀ (by exact_mod_cast hden)] at h
  have hge : low ≤ num / den := (Nat.le_div_iff_mul_le hden).mpr (by exact_mod_cast h)
  rcases roundHalfEven_cases num den with ⟨h, -⟩ | ⟨h, -⟩ <;> omega

theorem roundHalfEven_le (hden : 0 < den) {high : Nat} (h : (num : ℚ) / den < high) : roundHalfEven num den ≤ high := by
  rw [div_lt_iff₀ (by exact_mod_cast hden)] at h
  have hlt : num / den < high := (Nat.div_lt_iff_lt_mul hden).mpr (by exact_mod_cast h)
  rcases roundHalfEven_cases num den with ⟨h, -⟩ | ⟨h, -⟩ <;> omega

theorem log_eq_of_between {r : ℚ} (hr : 0 < r) {b : Int} (hle : (2 : ℚ) ^ b ≤ r) (hlt : r < 2 ^ (b + 1)) :
    Int.log 2 r = b := by
  have hge : b ≤ Int.log 2 r := (Int.zpow_le_iff_le_log (by decide) hr).mp (by exact_mod_cast hle)
  have hle : Int.log 2 r < b + 1 := (Int.lt_zpow_iff_log_lt (by decide) hr).mp (by exact_mod_cast hlt)
  omega

theorem two_zpow_log2_le {n : Nat} (hn : 0 < n) : (2 : ℚ) ^ (n.log2 : Int) ≤ n := by
  rw [zpow_natCast]
  exact_mod_cast Nat.log2_self_le hn.ne'

theorem lt_two_zpow_log2 (n : Nat) : (n : ℚ) < 2 ^ (n.log2 + 1 : Int) := by
  have h : n < 2 ^ (n.log2 + 1) := Nat.lt_log2_self
  exact_mod_cast h

/-- A ratio reaches a power of two. -/
theorem reaches_iff (hden : 0 < den) (k : Int) :
    (if 0 ≤ k then den * Nat.pow 2 k.toNat ≤ num else den ≤ num * Nat.pow 2 (-k).toNat) ↔ (2 : ℚ) ^ k ≤ num / den := by
  have hd : (0 : ℚ) < den := by exact_mod_cast hden
  rw [le_div_iff₀ hd]
  split
  · next hk =>
    obtain ⟨n, rfl⟩ := Int.eq_ofNat_of_zero_le hk
    rw [Int.toNat_natCast, zpow_natCast, mul_comm]
    exact_mod_cast Iff.rfl
  · next hk =>
    obtain ⟨n, rfl⟩ : ∃ n : Nat, k = -n := ⟨(-k).toNat, by omega⟩
    rw [Int.neg_neg, Int.toNat_natCast, zpow_neg, zpow_natCast, inv_mul_le_iff₀ (by positivity), mul_comm]
    exact_mod_cast Iff.rfl

/-- The last bit that is kept of a ratio is 52 bits below its first one. -/
theorem lastBit_eq (hnum : 0 < num) (hden : 0 < den) :
    lastBit num den = Max.max (Int.log 2 ((num : ℚ) / den) - 52) (-1074) := by
  have hn : (0 : ℚ) < num := by exact_mod_cast hnum
  have hd : (0 : ℚ) < den := by exact_mod_cast hden
  have hr : (0 : ℚ) < num / den := div_pos hn hd
  have htwo : (2 : ℚ) ≠ 0 := by decide
  set k : Int := num.log2 - den.log2 with hk
  -- one bit of the ratio is known from the lengths of its sides, and the comparison finds which one it is
  have hlow : (2 : ℚ) ^ (k - 1) < num / den := by
    rw [lt_div_iff₀ hd]
    calc (2 : ℚ) ^ (k - 1) * den < 2 ^ (k - 1) * 2 ^ (den.log2 + 1 : Int) :=
          mul_lt_mul_of_pos_left (lt_two_zpow_log2 den) (two_zpow_pos _)
      _ = 2 ^ (num.log2 : Int) := by
          rw [← zpow_add₀ htwo]
          congr 1
          omega
      _ ≤ num := two_zpow_log2_le hnum
  have hhigh : (num : ℚ) / den < 2 ^ (k + 1) := by
    rw [div_lt_iff₀ hd]
    calc (num : ℚ) < 2 ^ (num.log2 + 1 : Int) := lt_two_zpow_log2 num
      _ = 2 ^ (k + 1) * 2 ^ (den.log2 : Int) := by
          rw [← zpow_add₀ htwo]
          congr 1
          omega
      _ ≤ 2 ^ (k + 1) * den := mul_le_mul_of_nonneg_left (two_zpow_log2_le hden) (two_zpow_pos _).le
  have hreaches : (if 0 ≤ k then den * Nat.pow 2 k.toNat ≤ num else den ≤ num * Nat.pow 2 (-k).toNat) ↔
      (2 : ℚ) ^ k ≤ num / den := reaches_iff hden k
  have hlast : lastBit num den =
      Max.max (if (2 : ℚ) ^ k ≤ num / den then k - 52 else k - 53) (-1074) := by
    unfold lastBit
    simp only [← hk, hreaches]
  rw [hlast]
  split
  · next hle => rw [log_eq_of_between hr hle hhigh]
  · next hlt =>
    rw [log_eq_of_between hr hlow.le (by simpa using hlt)]
    congr 1
    omega

/-- The mantissa is the ratio in units of the last bit, rounded. -/
theorem exists_scaled (num : Nat) (hden : 0 < den) (e : Int) :
    ∃ n d : Nat, 0 < d ∧ (n : ℚ) / d = num / den / 2 ^ e ∧
      (if 0 ≤ e then roundHalfEven num (den * Nat.pow 2 e.toNat)
        else roundHalfEven (num * Nat.pow 2 (-e).toNat) den) = roundHalfEven n d := by
  have hpow : ∀ k : Nat, 0 < Nat.pow 2 k := fun k => Nat.two_pow_pos k
  split
  · next he =>
    obtain ⟨k, rfl⟩ := Int.eq_ofNat_of_zero_le he
    refine ⟨num, den * Nat.pow 2 k, Nat.mul_pos hden (hpow k), ?_, rfl⟩
    rw [Nat.cast_mul, Nat.pow_eq, Nat.cast_pow, Nat.cast_ofNat, zpow_natCast, div_div]
  · next he =>
    obtain ⟨k, rfl⟩ : ∃ k : Nat, e = -k := ⟨(-e).toNat, by omega⟩
    rw [Int.neg_neg, Int.toNat_natCast]
    refine ⟨num * Nat.pow 2 k, den, hden, ?_, rfl⟩
    rw [Nat.cast_mul, Nat.pow_eq, Nat.cast_pow, Nat.cast_ofNat, zpow_neg, zpow_natCast, div_inv_eq_mul,
      div_mul_eq_mul_div]

section

variable {r : ℚ} {b e : Int}

/-- In units of its last bit a ratio has 53 bits, or fewer at the least exponent. -/
theorem scaled_lt (hhigh : r < 2 ^ (b + 1)) (he : e = Max.max (b - 52) (-1074)) : r / 2 ^ e < 2 ^ 53 := by
  rw [div_lt_iff₀ (two_zpow_pos e)]
  calc r < 2 ^ (b + 1) := hhigh
    _ ≤ 2 ^ ((53 : Nat) + e) := zpow_le_zpow_right₀ one_le_two (by omega)
    _ = 2 ^ 53 * 2 ^ e := by rw [zpow_add₀ two_ne_zero, zpow_natCast]

theorem le_scaled (hlow : 2 ^ b ≤ r) (he : e = Max.max (b - 52) (-1074)) : 2 ^ 52 ≤ r / 2 ^ e ∨ e = -1074 := by
  rcases Int.le_total (-1074) (b - 52) with hnormal | hleast
  · left
    rw [le_div_iff₀ (two_zpow_pos e)]
    calc (2 : ℚ) ^ 52 * 2 ^ e = 2 ^ ((52 : Nat) + e) := by rw [zpow_add₀ two_ne_zero, zpow_natCast]
      _ = 2 ^ b := by congr 1; omega
      _ ≤ r := hlow
  · right
    omega

/-- Half of the last bit. -/
theorem half_le (hr : 0 ≤ r) (hlow : 2 ^ b ≤ r) (he : e = Max.max (b - 52) (-1074)) :
    2 ^ e / 2 ≤ r / 2 ^ 53 + 2 ^ (-1075 : Int) := by
  have hhalf : (2 : ℚ) ^ e / 2 = 2 ^ (e - 1) := by rw [zpow_sub_one₀ two_ne_zero, div_eq_mul_inv]
  rw [hhalf]
  rcases Int.le_total (-1074) (b - 52) with hnormal | hleast
  · have hle : (2 : ℚ) ^ (e - 1) ≤ r / 2 ^ 53 := by
      rw [le_div_iff₀ (by positivity)]
      calc (2 : ℚ) ^ (e - 1) * 2 ^ 53 = 2 ^ (e - 1 + (53 : Nat)) := by rw [zpow_add₀ two_ne_zero, zpow_natCast]
        _ = 2 ^ b := by congr 1; omega
        _ ≤ r := hlow
    exact hle.trans (le_add_of_nonneg_right (two_zpow_pos _).le)
  · obtain rfl : e = -1074 := by omega
    exact le_add_of_nonneg_left (div_nonneg hr (by positivity))

end

/-- **A ratio is rounded by half of its last bit.** -/
theorem rounds_ofRatio (negative : Bool) (num : Nat) (hden : 0 < den) (hr : (num : ℚ) / den < 2 ^ (1022 : Int)) :
    (ofRatio negative num den).Rounds (signed negative (num / den)) := by
  rcases Nat.eq_zero_or_pos num with rfl | hnum
  · refine ⟨rfl, ?_⟩
    rw [show ofRatio negative 0 den = zero negative from rfl, value_zero]
    cases negative <;> simp [signed]
  have hpos : (0 : ℚ) < num / den := div_pos (by exact_mod_cast hnum) (by exact_mod_cast hden)
  have hlow : (2 : ℚ) ^ Int.log 2 ((num : ℚ) / den) ≤ num / den := by
    exact_mod_cast Int.zpow_log_le_self (by decide) hpos
  have hhigh : (num : ℚ) / den < 2 ^ (Int.log 2 ((num : ℚ) / den) + 1) := by
    exact_mod_cast Int.lt_zpow_succ_log_self (b := 2) (by decide) ((num : ℚ) / den)
  have hexponent : Int.log 2 ((num : ℚ) / den) < 1022 :=
    (Int.lt_zpow_iff_log_lt (by decide) hpos).mp (by rwa [Nat.cast_ofNat])
  clear hr
  have hlast := lastBit_eq hnum hden
  obtain ⟨n, d, hd, hscaled, hmantissa⟩ := exists_scaled num hden (lastBit num den)
  have hof : ofRatio negative num den = ofParts negative (roundHalfEven n d) (lastBit num den) := by
    unfold ofRatio
    rw [if_neg hnum.ne', ← hmantissa]
  rw [hof]
  generalize lastBit num den = e at hlast hscaled ⊢
  generalize (num : ℚ) / den = r at *
  have hunit := two_zpow_pos e
  have hle : roundHalfEven n d ≤ 2 ^ 53 := roundHalfEven_le hd (by rw [hscaled]; exact_mod_cast scaled_lt hhigh hlast)
  have hge : 2 ^ 52 ≤ roundHalfEven n d ∨ e = -1074 :=
    (le_scaled hlow hlast).imp_left fun hle => le_roundHalfEven hd (by rw [hscaled]; exact_mod_cast hle)
  have hleast : -1074 ≤ e := by omega
  obtain ⟨m, e', h, hparts, hunits⟩ := exists_ofParts negative hge hle hleast (by omega)
  rw [hparts]
  refine ⟨rfl, ?_⟩
  have herror := abs_roundHalfEven_sub_le n hd
  rw [hscaled] at herror
  rw [value_finite, hunits, units_div_one _ hleast, signed_sub, abs_signed, abs_signed, abs_of_pos hpos]
  calc |(roundHalfEven n d : ℚ) * 2 ^ e - r| = |(roundHalfEven n d : ℚ) - r / 2 ^ e| * 2 ^ e := by
        rw [← abs_of_pos hunit, ← abs_mul, sub_mul, abs_of_pos hunit, div_mul_cancel₀ _ hunit.ne']
    _ ≤ 1 / 2 * 2 ^ e := mul_le_mul_of_nonneg_right herror hunit.le
    _ = 2 ^ e / 2 := by rw [one_div_mul_eq_div]
    _ ≤ r / 2 ^ 53 + 2 ^ (-1075 : Int) := half_le hpos.le hlow hlast

end

/-! ### Operations -/

section

variable {x y : Double} {a b : ℚ}

/-- A finite number is a ratio of units with a sign. -/
theorem exists_finite (hx : x.isFinite = true) :
    ∃ negative m e h, x = finite negative m e h ∧ x.value = signed negative ((units m e : ℚ) / one) := by
  cases x with
  | nan | infinity => cases hx
  | finite negative m e h => exact ⟨negative, m, e, h, rfl, value_finite negative h⟩

theorem lt_of_abs_signed_lt {negative : Bool} {c : ℚ} (h : |signed negative a| < c) : a < c := by
  rw [abs_signed] at h
  exact (le_abs_self a).trans_lt h

theorem rounds_div (hx : x.isFinite = true) (hy : y.isFinite = true) (hne : y.value ≠ 0)
    (hlt : |x.value / y.value| < 2 ^ (1022 : Int)) : (x.div y).Rounds (x.value / y.value) := by
  obtain ⟨n, m, e, h, rfl, hvalue⟩ := exists_finite hx
  obtain ⟨n', m', e', h', rfl, hvalue'⟩ := exists_finite hy
  have hunits : units m' e' ≠ 0 := fun hzero => hne (by
    rw [hvalue', hzero, Nat.cast_zero, zero_div, signed_zero])
  have hm' : m' ≠ 0 := fun hzero => hunits (by rw [units, hzero, Nat.zero_mul])
  have hratio : (units m e : ℚ) / one / ((units m' e' : ℚ) / one) = units m e / units m' e' :=
    div_div_div_cancel_right₀ one_pos'.ne' _ _
  rw [hvalue, hvalue', signed_div, hratio] at hlt ⊢
  rw [div, if_neg hm']
  exact rounds_ofRatio _ _ (Nat.pos_of_ne_zero hunits) (lt_of_abs_signed_lt hlt)

theorem rounds_mul (hx : x.isFinite = true) (hy : y.isFinite = true) (hlt : |x.value * y.value| < 2 ^ (1022 : Int)) :
    (x.mul y).Rounds (x.value * y.value) := by
  obtain ⟨n, m, e, h, rfl, hvalue⟩ := exists_finite hx
  obtain ⟨n', m', e', h', rfl, hvalue'⟩ := exists_finite hy
  have hratio : (units m e : ℚ) / one * ((units m' e' : ℚ) / one) =
      (units m e * units m' e' : Nat) / (one * one : Nat) := by
    rw [div_mul_div_comm, Nat.cast_mul, Nat.cast_mul]
  rw [hvalue, hvalue', signed_mul, hratio] at hlt ⊢
  exact rounds_ofRatio _ _ (Nat.mul_pos one_pos one_pos) (lt_of_abs_signed_lt hlt)

theorem signed_natAbs (d : Int) : signed (d < 0) (d.natAbs / one) = d / one := by
  rcases Int.lt_or_le d 0 with hneg | hpos
  · have habs : ((d.natAbs : Int) : ℚ) = -d := by
      rw [Int.ofNat_natAbs_of_nonpos hneg.le, Int.cast_neg]
    rw [decide_eq_true hneg, signed, if_pos rfl, ← Int.cast_natCast, habs, neg_div, neg_neg]
  · have habs : ((d.natAbs : Int) : ℚ) = d := by rw [Int.natAbs_of_nonneg hpos]
    rw [decide_eq_false (by omega), signed, if_neg Bool.false_ne_true, ← Int.cast_natCast, habs]

theorem rounds_sub (hx : x.isFinite = true) (hy : y.isFinite = true) (hlt : |x.value - y.value| < 2 ^ (1022 : Int)) :
    (x.sub y).Rounds (x.value - y.value) := by
  have hdifference : x.value - y.value = ((x.signedUnits - y.signedUnits : Int) : ℚ) / one := by
    rw [value, value, ← sub_div, Int.cast_sub]
  have hsub : ∃ negative, x.sub y = if x.signedUnits - y.signedUnits = 0 then zero negative else
      ofRatio (x.signedUnits - y.signedUnits < 0) (x.signedUnits - y.signedUnits).natAbs one := by
    obtain ⟨n, m, e, h, rfl, -⟩ := exists_finite hx
    obtain ⟨n', m', e', h', rfl, -⟩ := exists_finite hy
    exact ⟨_, rfl⟩
  obtain ⟨negative, hsub⟩ := hsub
  rw [hdifference] at hlt ⊢
  rw [hsub]
  generalize x.signedUnits - y.signedUnits = d at hlt ⊢
  split
  · next hd =>
    refine ⟨rfl, ?_⟩
    rw [value_zero, hd, Int.cast_zero, zero_div, sub_zero, abs_zero, zero_div, zero_add]
    exact (two_zpow_pos _).le
  · rw [← signed_natAbs] at hlt ⊢
    exact rounds_ofRatio _ _ one_pos (lt_of_abs_signed_lt hlt)

/-- The integer nearest to a number of units. -/
theorem abs_nearest_sub_le (u : Nat) : |(u : ℚ) / one - ((2 * u + one) / (2 * one) : Nat)| ≤ 1 / 2 := by
  have hpos := one_pos
  have hone : (0 : ℚ) < one := one_pos'
  have hdiv := Nat.div_add_mod' (2 * u + one) (2 * one)
  have hmod : (2 * u + one) % (2 * one) < 2 * one := Nat.mod_lt _ (by omega)
  generalize (2 * u + one) / (2 * one) = k at hdiv ⊢
  generalize (2 * u + one) % (2 * one) = rest at hdiv hmod
  -- `k` whole units and a rest below one, less the half that was added
  have hcast : (k : ℚ) * (2 * one) + rest = 2 * u + one := by exact_mod_cast hdiv
  have hrest : (rest : ℚ) < 2 * one := by exact_mod_cast hmod
  have hnonneg : (0 : ℚ) ≤ rest := Nat.cast_nonneg rest
  have hdifference : (u : ℚ) / one - k = (rest - one) / (2 * one) := by
    field_simp
    linarith
  rw [hdifference, abs_div, abs_of_pos (by linarith : (0 : ℚ) < 2 * one), div_le_div_iff₀ (by linarith) two_pos]
  have habs : |(rest : ℚ) - one| ≤ one := abs_le.mpr ⟨by linarith, by linarith⟩
  linarith

/-- A number is rounded to a nearest integer, and this to a number. -/
theorem exists_rounds_round (hx : x.isFinite = true) (hlt : |x.value| + 1 < 2 ^ (1022 : Int)) :
    ∃ k : Int, x.round.Rounds k ∧ |x.value - k| ≤ 1 / 2 := by
  obtain ⟨negative, m, e, h, rfl, hvalue⟩ := exists_finite hx
  have hnearest := abs_nearest_sub_le (units m e)
  have hround : (finite negative m e h).round = ofRatio negative ((2 * units m e + one) / (2 * one)) 1 := rfl
  rw [hvalue] at hlt ⊢
  rw [hround]
  generalize (2 * units m e + one) / (2 * one) = k at hnearest ⊢
  have hk : ((if negative then -(k : Int) else k : Int) : ℚ) = signed negative ((k : ℚ) / (1 : Nat)) := by
    cases negative <;> simp [signed]
  refine ⟨if negative then -k else k, ?_, ?_⟩
  · rw [hk]
    refine rounds_ofRatio negative k Nat.one_pos ?_
    rw [abs_signed, abs_of_nonneg (div_nonneg (Nat.cast_nonneg _) one_pos'.le)] at hlt
    rw [Nat.cast_one, div_one]
    have hle := neg_le_of_abs_le hnearest
    have hbelow : (k : ℚ) ≤ (units m e : ℚ) / one + 1 := by linarith only [hle]
    exact hbelow.trans_lt hlt
  · rw [hk, signed_sub, abs_signed, Nat.cast_one, div_one]
    exact hnearest

theorem value_abs (x : Double) : x.abs.value = |x.value| := by
  have hzero : ((0 : Int) : ℚ) / one = |((0 : Int) : ℚ) / one| := by rw [Int.cast_zero, zero_div, abs_zero]
  cases x with
  | nan | infinity => exact hzero
  | finite negative m e h =>
    rw [abs, value_finite, value_finite, abs_signed, signed, if_neg Bool.false_ne_true, abs_of_nonneg (by positivity)]

theorem isFinite_abs (hx : x.isFinite = true) : x.abs.isFinite = true := by
  cases x with
  | nan | infinity => cases hx
  | finite => rfl

theorem le_iff_value (hx : x.isFinite = true) (hy : y.isFinite = true) : x.le y = true ↔ x.value ≤ y.value := by
  rw [le_iff hx hy, value, value, div_le_div_iff_of_pos_right one_pos', Int.cast_le]

theorem isFinite_max (hx : x.isFinite = true) (hy : y.isFinite = true) :
    (x.max y).isFinite = true ∧ (x.max y).value = Max.max x.value y.value := by
  have hmax : x.max y = if x.lt y then y else x := by
    cases x with
    | nan | infinity => cases hx
    | finite =>
      cases y with
      | nan | infinity => cases hy
      | finite => rfl
  rw [hmax]
  by_cases h : x.lt y = true
  · rw [if_pos h]
    rw [lt_iff hx hy] at h
    refine ⟨hy, (max_eq_right ?_).symm⟩
    rw [value, value, div_le_div_iff_of_pos_right one_pos', Int.cast_le]
    exact h.le
  · rw [if_neg h]
    rw [lt_iff hx hy, not_lt] at h
    refine ⟨hx, (max_eq_left ?_).symm⟩
    rw [value, value, div_le_div_iff_of_pos_right one_pos', Int.cast_le]
    exact h

end

end JsonSchema.Double
