import JsonSchema.Proofs.Numeric

/-!
Bounds that are integers. A schema document of such bounds always becomes a schema (`Compiler.compile_numeric`), but
bound and value are both rounded to floating-point numbers before they are compared. Rounding never turns the order of
two integers around, so the comparison is that of the integers as long as they are not rounded to the same number; if
they are, they count as equal (`InRoundedOrder`). Below `2^53` nothing is lost, and it is enough that one of the two is
that small (`merged_iff_eq`). From there on a schema may accept what is beyond its bound, or refuse what is within.
-/

namespace JsonSchema

open Compilation

/-! ### The order of rounded integers -/

/-- Both integers are rounded to the same number. -/
def Merged (low high : Int64) : Prop := (Double.ofInt low.toInt).eq (Double.ofInt high.toInt) = true

instance (low high : Int64) : Decidable (Merged low high) := inferInstanceAs (Decidable (_ = true))

/-- An integer is below another one, or is the other one unless that is excluded. -/
def InOrder (exclusive : Bool) (low high : Int64) : Prop := if exclusive then low < high else low ≤ high

/-- The order in which integers that are rounded to the same number count as equal. -/
def InRoundedOrder (exclusive : Bool) (low high : Int64) : Prop :=
  if exclusive then low < high ∧ ¬Merged low high else low ≤ high ∨ Merged low high

instance (exclusive : Bool) (low high : Int64) : Decidable (InOrder exclusive low high) := by
  unfold InOrder
  infer_instance

instance (exclusive : Bool) (low high : Int64) : Decidable (InRoundedOrder exclusive low high) := by
  unfold InRoundedOrder
  infer_instance

section

variable {exclusive : Bool} {low high : Int64}

theorem Merged.symm (h : Merged low high) : Merged high low := Double.eq_symm h

theorem merged_refl (i : Int64) : Merged i i := by
  have hfinite := (Double.ofInt_nearest (Double.natAbs_toInt_lt i)).1
  exact (Double.eq_iff_of_finite hfinite hfinite).2 rfl

/-- Only large integers are rounded to the same number. -/
theorem Merged.eq_of_lt (h : Merged low high) (hlow : low.toInt.natAbs < 2 ^ 53) : low = high := by
  have hint := Double.isInt_ofInt (Double.natAbs_toInt_lt low) (Double.exists_isInt hlow)
  have hsize : (Double.ofInt low.toInt).signedUnits.natAbs < 2 ^ 53 * Double.one := by
    rw [hint.2, Int.natAbs_mul, Int.natAbs_natCast]
    exact Nat.mul_lt_mul_of_pos_right hlow Double.one_pos
  exact Double.isUnambiguous_of_lt hsize low high (merged_refl low) h.symm

theorem merged_iff_eq (h : low.toInt.natAbs < 2 ^ 53 ∨ high.toInt.natAbs < 2 ^ 53) : Merged low high ↔ low = high := by
  refine ⟨fun hm => ?_, fun heq => heq ▸ merged_refl low⟩
  rcases h with hlow | hhigh
  · exact hm.eq_of_lt hlow
  · exact (hm.symm.eq_of_lt hhigh).symm

/-- Floating-point numbers are compared as the integers are, apart from those that are rounded to the same number. -/
theorem rounded_iff : (if exclusive then (Double.ofInt low.toInt).lt (Double.ofInt high.toInt)
      else (Double.ofInt low.toInt).le (Double.ofInt high.toInt)) = true ↔ InRoundedOrder exclusive low high := by
  have hlow := Double.natAbs_toInt_lt low
  have hhigh := Double.natAbs_toInt_lt high
  unfold InRoundedOrder Merged
  cases exclusive with
  | true => exact (Double.ofInt_lt_ofInt_iff hlow hhigh).trans (and_congr_left' Int64.lt_iff_toInt_lt.symm)
  | false => exact (Double.ofInt_le_ofInt_iff hlow hhigh).trans (or_congr_left Int64.le_iff_toInt_le.symm)

/-- Where no two integers are rounded to the same number, the order is that of the integers. -/
theorem inRoundedOrder_iff (h : Merged low high → low = high) :
    InRoundedOrder exclusive low high ↔ InOrder exclusive low high := by
  unfold InRoundedOrder InOrder
  cases exclusive with
  | true =>
    refine and_iff_left_of_imp fun hlt hm => ?_
    exact absurd (h hm) (Int64.ne_of_lt hlt)
  | false =>
    refine or_iff_left_of_imp fun hm => ?_
    exact h hm ▸ Int64.le_refl low

end

/-! ### Documents of bounds -/

namespace Value

variable {v : Value} {key : String}

/-- An object that consists of bounds, which are integers, and of booleans that say whether these are exclusive. -/
structure IsBounds (v : Value) : Prop where
  object : v.kind = .object
  only : ∀ m ∈ v.members, m.1 ∈ ["minimum", "maximum", "exclusiveMinimum", "exclusiveMaximum"]
  bound : ∀ m ∈ v.members, m.1 ∈ ["minimum", "maximum"] → ∃ b, m.2.asInteger? = some b
  flag : ∀ m ∈ v.members, m.1 ∈ ["exclusiveMinimum", "exclusiveMaximum"] → ∃ exclusive, m.2.asBool? = some exclusive

/-- The integer that a bound is. -/
def bound? (v : Value) (keyword : String) : Option Int64 := (v.get? keyword).bind asInteger?

/-- The integer is within the bounds of the document. -/
def Encloses (v : Value) (order : Bool → Int64 → Int64 → Prop) (i : Int64) : Prop :=
  (∀ b, v.bound? "minimum" = some b → order (Keyword.flag v "exclusiveMinimum") b i) ∧
    ∀ b, v.bound? "maximum" = some b → order (Keyword.flag v "exclusiveMaximum") i b

namespace IsBounds

/-- Bounds are numbers. -/
theorem isNumeric (h : v.IsBounds) : v.IsNumeric where
  object := h.object
  only m hm := List.mem_append_left ["multipleOf"] (h.only m hm)
  bound m hm hkey := by
    obtain ⟨b, hb⟩ := h.bound m hm hkey
    exact ⟨_, asDouble?_of_asInteger? hb⟩
  flag := h.flag
  quantity m hm hkey := by
    have hmem := h.only m hm
    rw [hkey] at hmem
    exact absurd hmem (by decide)

/-- A bound is read as the number nearest to it. -/
theorem number?_eq (h : v.IsBounds) (hkey : key ∈ ["minimum", "maximum"]) :
    Keyword.number? v key = (v.bound? key).map fun b => Double.ofInt b.toInt := by
  unfold Keyword.number? bound?
  cases hw : v.get? key with
  | none => rfl
  | some w =>
    obtain ⟨b, hb⟩ := h.bound _ (mem_members_of_get? hw) hkey
    rw [Option.bind_some, Option.bind_some, asDouble?_of_asInteger? hb, hb, Option.map_some]

end IsBounds

end Value

/-! ### Schemas of bounds -/

/-- The constraints of a document of bounds are its bounds, rounded. -/
theorem Value.IsBounds.numeric_eq {v : Value} (h : v.IsBounds) : Keyword.numeric v =
    ((v.bound? "minimum").map fun b => .minimum (Double.ofInt b.toInt) (Keyword.flag v "exclusiveMinimum")).toList ++
      ((v.bound? "maximum").map fun b =>
        .maximum (Double.ofInt b.toInt) (Keyword.flag v "exclusiveMaximum")).toList := by
  have hmultiple : Keyword.number? v "multipleOf" = none := by
    have hkey : "multipleOf" ∉ ["minimum", "maximum", "exclusiveMinimum", "exclusiveMaximum"] := by decide
    have hnone : v.get? "multipleOf" = none :=
      Option.eq_none_iff_forall_not_mem.mpr fun _ hw => hkey (h.only _ (mem_members_of_get? hw))
    rw [Keyword.number?, hnone]
    rfl
  rw [Keyword.numeric, h.number?_eq (.head _), h.number?_eq (.tail _ (.head _)), hmultiple, Option.map_map,
    Option.map_map]
  simp [Function.comp_def]

/-- The bounds that a document denotes are met by the integers that it encloses in the rounded order. -/
theorem Value.IsBounds.verdict_iff {v x : Value} {i : Int64} {below : SchemaId → Value → Verdict} (h : v.IsBounds)
    (hx : x.asInteger? = some i) :
    (∀ c ∈ Keyword.numeric v, c.verdict below x = .valid) ↔ v.Encloses InRoundedOrder i := by
  have hdouble := asDouble?_of_asInteger? hx
  rw [h.numeric_eq, List.forall_mem_append]
  refine and_congr ?_ ?_
  · cases v.bound? "minimum" with
    | none => simp
    | some b =>
      rw [Option.map_some, Option.toList_some, List.forall_mem_singleton, verdict_minimum_iff hdouble, rounded_iff]
      simp
  · cases v.bound? "maximum" with
    | none => simp
    | some b =>
      rw [Option.map_some, Option.toList_some, List.forall_mem_singleton, verdict_maximum_iff hdouble, rounded_iff]
      simp

/-- A schema of bounds accepts the integers that it encloses in the rounded order. -/
theorem Compiler.compileValue_isBounds {c : Compiler} {v : Value} {uri? : Option String} {document : Document}
    (hd : Document.given v uri? = .ok document) (hv : v.IsBounds) (hdepth : 1 ≤ c.limits.maxDepth) (store : Store) :
    ∃ s after, c.compileValue v uri? store = (.ok s, after) ∧ ∀ maxDepth x i, x.asInteger? = some i →
      (s.validate maxDepth x = [] ↔ v.Encloses InRoundedOrder i) := by
  obtain ⟨rfl, heq⟩ := compileValue_eq c store hd
  obtain ⟨s, after, hrun, hconstraints⟩ := compile_numeric hv.isNumeric hdepth store
  refine ⟨s, after, heq.trans hrun, fun maxDepth x i hx => ?_⟩
  rw [validate_eq_nil_iff, hconstraints]
  exact hv.verdict_iff hx

/-- If no bound is rounded to the same number as the integer, apart from the integer itself, it makes no difference that
they are rounded. -/
theorem Value.encloses_iff {v : Value} {i : Int64}
    (h : ∀ b, v.bound? "minimum" = some b ∨ v.bound? "maximum" = some b → Merged b i → b = i) :
    v.Encloses InRoundedOrder i ↔ v.Encloses InOrder i := by
  refine and_congr ?_ ?_
  · exact forall_congr' fun b => forall_congr' fun hb => inRoundedOrder_iff (h b (.inl hb))
  · exact forall_congr' fun b => forall_congr' fun hb =>
      inRoundedOrder_iff fun hm => (h b (.inr hb) hm.symm).symm

/-- **Integer bounds are decided up to rounding.** A document of bounds becomes a schema, and this accepts an integer if
and only if the bounds enclose it, where integers that are rounded to the same floating-point number count as equal. So
the order is that of the integers unless a bound is rounded to the same number as the integer and is another one, which
cannot be if the bounds or the integer are below `2^53` in size. -/
theorem Compiler.compileValue_bounds {c : Compiler} {v : Value} {uri? : Option String} {document : Document}
    (hd : Document.given v uri? = .ok document) (hv : v.IsBounds) (hdepth : 1 ≤ c.limits.maxDepth) (store : Store) :
    ∃ s after, c.compileValue v uri? store = (.ok s, after) ∧ ∀ maxDepth x i, x.asInteger? = some i →
      (s.validate maxDepth x = [] ↔ v.Encloses InRoundedOrder i) ∧
      ((∀ b, v.bound? "minimum" = some b ∨ v.bound? "maximum" = some b → Merged b i → b = i) →
        (s.validate maxDepth x = [] ↔ v.Encloses InOrder i)) ∧
      ((∀ b, v.bound? "minimum" = some b ∨ v.bound? "maximum" = some b →
          b.toInt.natAbs < 2 ^ 53 ∨ i.toInt.natAbs < 2 ^ 53) →
        (s.validate maxDepth x = [] ↔ v.Encloses InOrder i)) := by
  obtain ⟨s, after, hrun, hvalidate⟩ := compileValue_isBounds hd hv hdepth store
  refine ⟨s, after, hrun, fun maxDepth x i hx => ?_⟩
  have hrounded := hvalidate maxDepth x i hx
  refine ⟨hrounded, fun h => hrounded.trans (Value.encloses_iff h), fun h => ?_⟩
  exact hrounded.trans (Value.encloses_iff fun b hb => (merged_iff_eq (h b hb)).1)

/-- The integers from a lower bound on, with or without the bound itself. -/
def boundedBelow (low : Int64) (exclusive : Bool) : Value :=
  ⟨⟨0, #[.object [("minimum", 1), ("exclusiveMinimum", 2)], .integer low, .boolean exclusive]⟩, 0⟩

theorem isBounds_boundedBelow (low : Int64) (exclusive : Bool) : (boundedBelow low exclusive).IsBounds where
  object := rfl
  only m hm := by
    rcases List.mem_pair.mp hm with rfl | rfl
    · exact .head _
    · exact .tail _ (.tail _ (.head _))
  bound m hm hkey := by
    rcases List.mem_pair.mp hm with rfl | rfl
    · exact ⟨low, rfl⟩
    · exact absurd hkey (show "exclusiveMinimum" ∉ ["minimum", "maximum"] by decide)
  flag m hm hkey := by
    rcases List.mem_pair.mp hm with rfl | rfl
    · exact absurd hkey (show "minimum" ∉ ["exclusiveMinimum", "exclusiveMaximum"] by decide)
    · exact ⟨exclusive, rfl⟩

theorem encloses_boundedBelow {low i : Int64} {exclusive : Bool} {order : Bool → Int64 → Int64 → Prop} :
    (boundedBelow low exclusive).Encloses order i ↔ order exclusive low i := by
  have hminimum : (boundedBelow low exclusive).bound? "minimum" = some low := rfl
  have hmaximum : (boundedBelow low exclusive).bound? "maximum" = none := rfl
  have hflag : Keyword.flag (boundedBelow low exclusive) "exclusiveMinimum" = exclusive := by
    cases exclusive <;> rfl
  rw [Value.Encloses, hminimum, hmaximum, hflag]
  simp

/-- Three is not above three, and four is. -/
theorem compileValue_boundedBelow_three : (boundedBelow 3 true).IsBounds ∧ 1 ≤ lonelyCompiler.limits.maxDepth ∧
    ∃ s after, lonelyCompiler.compileValue (boundedBelow 3 true) none (.start 2) = (.ok s, after) ∧
      ∀ maxDepth, s.validate maxDepth (.scalar 0 (.integer 4)) = [] ∧
        s.validate maxDepth (.scalar 0 (.integer 3)) ≠ [] := by
  have hgiven : Document.given (boundedBelow 3 true) none = .ok (.anonymous (boundedBelow 3 true)) := rfl
  have hbounds := isBounds_boundedBelow 3 true
  have hdepth : 1 ≤ lonelyCompiler.limits.maxDepth := by decide
  obtain ⟨s, after, hrun, hvalidate⟩ := Compiler.compileValue_bounds hgiven hbounds hdepth (.start 2)
  have hexact : ∀ maxDepth (i : Int64), i.toInt.natAbs < 2 ^ 53 →
      (s.validate maxDepth (.scalar 0 (.integer i)) = [] ↔ 3 < i) := fun maxDepth i hi =>
    ((hvalidate maxDepth _ i rfl).2.2 fun _ _ => .inr hi).trans encloses_boundedBelow
  exact ⟨hbounds, hdepth, s, after, hrun, fun maxDepth => ⟨(hexact maxDepth 4 (by decide)).2 (by decide),
    fun hnil => absurd ((hexact maxDepth 3 (by decide)).1 hnil) (by decide)⟩⟩

/-- From `2^53` on neighbours are rounded to the same number: the integer above an exclusive bound is refused, and the
integer below a bound is accepted. -/
theorem compileValue_boundedBelow_large :
    (∃ s after, lonelyCompiler.compileValue (boundedBelow 9007199254740992 true) none (.start 2) = (.ok s, after) ∧
      InOrder true 9007199254740992 9007199254740993 ∧
      ∀ maxDepth, s.validate maxDepth (.scalar 0 (.integer 9007199254740993)) ≠ []) ∧
    ∃ s after, lonelyCompiler.compileValue (boundedBelow 9007199254740993 false) none (.start 2) = (.ok s, after) ∧
      ¬InOrder false 9007199254740993 9007199254740992 ∧
      ∀ maxDepth, s.validate maxDepth (.scalar 0 (.integer 9007199254740992)) = [] := by
  have hdepth : 1 ≤ lonelyCompiler.limits.maxDepth := by decide
  have hmerged : Merged 9007199254740992 9007199254740993 := by decide +kernel
  have hgiven : ∀ v, Document.given v none = .ok (.anonymous v) := fun _ => rfl
  refine ⟨?_, ?_⟩
  · obtain ⟨s, after, hrun, hvalidate⟩ :=
      Compiler.compileValue_isBounds (hgiven _) (isBounds_boundedBelow 9007199254740992 true) hdepth (.start 2)
    refine ⟨s, after, hrun, by decide, fun maxDepth hnil => ?_⟩
    exact (encloses_boundedBelow.1 ((hvalidate maxDepth _ _ rfl).1 hnil)).2 hmerged
  · obtain ⟨s, after, hrun, hvalidate⟩ :=
      Compiler.compileValue_isBounds (hgiven _) (isBounds_boundedBelow 9007199254740993 false) hdepth (.start 2)
    refine ⟨s, after, hrun, by decide, fun maxDepth => ?_⟩
    exact (hvalidate maxDepth _ _ rfl).2 (encloses_boundedBelow.2 (.inr hmerged.symm))

end JsonSchema
