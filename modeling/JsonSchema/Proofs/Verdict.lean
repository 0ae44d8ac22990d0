import JsonSchema.Validation
import Mathlib.Data.List.Basic

/-!
What validation says, in three values. A schema accepts a value, rejects it, or the depth limit leaves the
question open; the verdict is computed from the constraints by strong Kleene connectives and never looks at
issues. Validation computes no verdict: it collects issues, and reads off them how a branch of a combination
has ended. `verdict_check` says that the two agree at every place and every depth: the report of a check is
empty, holds a broken constraint, or holds places beyond the limit alone, exactly as the verdict is valid,
invalid or unknown.

The link is `Report.verdict`, which turns the concatenation of reports into the conjunction of their verdicts
(`verdict_append`, `verdict_flatMap`); one lemma for each kind of constraint then carries a verdict from the
schemas it refers to, to the constraint itself (`verdict_issues`).
-/

namespace JsonSchema

/-! ### Three values -/

/-- What can be said of a value within the depth limit. -/
inductive Verdict where
  | valid
  | invalid
  | unknown
  deriving DecidableEq

namespace Verdict

/-- The verdict of a constraint that does not look into parts. -/
def ofBool (b : Bool) : Verdict := if b then .valid else .invalid

/-- Strong Kleene conjunction. -/
def and : Verdict → Verdict → Verdict
  | .invalid, _ => .invalid
  | _, .invalid => .invalid
  | .valid, .valid => .valid
  | _, _ => .unknown

/-- Strong Kleene disjunction. -/
def or : Verdict → Verdict → Verdict
  | .valid, _ => .valid
  | _, .valid => .valid
  | .invalid, .invalid => .invalid
  | _, _ => .unknown

/-- Negation; what is unknown stays so. -/
def neg : Verdict → Verdict
  | .valid => .invalid
  | .invalid => .valid
  | .unknown => .unknown

/-- The conjunction of a list. -/
def all (l : List Verdict) : Verdict := l.foldr and .valid

/-- The disjunction of a list. -/
def any (l : List Verdict) : Verdict := l.foldr or .invalid

/-- Exactly one of a list: two that hold refute it whatever the others are; else it is open while one of
them is. -/
def one (l : List Verdict) : Verdict :=
  if 2 ≤ l.count .valid then .invalid
  else if .unknown ∈ l then .unknown
  else ofBool (l.count .valid = 1)

@[simp] theorem all_nil : all [] = .valid := rfl
@[simp] theorem all_cons (t : Verdict) (l : List Verdict) : all (t :: l) = t.and (all l) := rfl
@[simp] theorem any_nil : any [] = .invalid := rfl
@[simp] theorem any_cons (t : Verdict) (l : List Verdict) : any (t :: l) = t.or (any l) := rfl

@[simp] theorem valid_and (t : Verdict) : and .valid t = t := by cases t <;> rfl
@[simp] theorem and_valid (t : Verdict) : t.and .valid = t := by cases t <;> rfl

theorem and_assoc (r s t : Verdict) : (r.and s).and t = r.and (s.and t) := by
  cases r <;> cases s <;> cases t <;> rfl

theorem all_append (l m : List Verdict) : all (l ++ m) = (all l).and (all m) := by
  induction l with
  | nil => simp
  | cons t l ih => simp [ih, and_assoc]

theorem all_eq_valid_iff {l : List Verdict} : all l = .valid ↔ ∀ t ∈ l, t = .valid := by
  induction l with
  | nil => simp
  | cons t l ih =>
    rw [all_cons, List.forall_mem_cons, ← ih]
    cases t <;> cases all l <;> simp [and]

theorem all_eq_invalid_iff {l : List Verdict} : all l = .invalid ↔ .invalid ∈ l := by
  induction l with
  | nil => simp
  | cons t l ih =>
    rw [all_cons, List.mem_cons, ← ih]
    cases t <;> cases all l <;> simp [and]

/-- A conjunction depends on what is in the list only. -/
theorem all_congr {l m : List Verdict} (h : l ⊆ m) (h' : m ⊆ l) : all l = all m := by
  have hvalid : all l = .valid ↔ all m = .valid := by
    rw [all_eq_valid_iff, all_eq_valid_iff]
    exact ⟨fun hl t ht => hl t (h' ht), fun hm t ht => hm t (h ht)⟩
  have hinvalid : all l = .invalid ↔ all m = .invalid := by
    rw [all_eq_invalid_iff, all_eq_invalid_iff]
    exact ⟨fun hl => h hl, fun hm => h' hm⟩
  cases hl : all l <;> cases hm : all m <;> simp_all

theorem ofBool_eq_valid_iff {b : Bool} : ofBool b = .valid ↔ b = true := by cases b <;> simp [ofBool]

theorem any_eq_valid_iff {l : List Verdict} : any l = .valid ↔ .valid ∈ l := by
  induction l with
  | nil => simp
  | cons t l ih =>
    rw [any_cons, List.mem_cons, ← ih]
    cases t <;> cases any l <;> simp [or]

theorem any_eq_invalid_iff {l : List Verdict} : any l = .invalid ↔ ∀ t ∈ l, t = .invalid := by
  induction l with
  | nil => simp
  | cons t l ih =>
    rw [any_cons, List.forall_mem_cons, ← ih]
    cases t <;> cases any l <;> simp [or]

end Verdict

/-! ### The verdict of a schema -/

/-- The schemas that cover a member: every one of its name and every one whose pattern it matches, and the
additional one when there is none of these. -/
def coveringSchemas (named : List (String × SchemaId)) (patterns : List (Regex × SchemaId))
    (additional : Option SchemaId) (key : String) : List SchemaId :=
  let own := named.filterMap fun (name, schema) => if name = key then some schema else none
  let matching := patterns.filterMap fun (regex, schema) => if regex.isMatch key then some schema else none
  if own = [] ∧ matching = [] then additional.toList else own ++ matching

/-- A schema covers a member by its name or by a pattern, or as the additional one if no other does. -/
theorem mem_coveringSchemas_iff {named : List (String × SchemaId)} {patterns : List (Regex × SchemaId)}
    {additional : Option SchemaId} {key : String} {id : SchemaId} :
    id ∈ coveringSchemas named patterns additional key ↔
      (key, id) ∈ named ∨ (∃ regex, (regex, id) ∈ patterns ∧ regex.isMatch key = true) ∨
        additional = some id ∧ (∀ id, (key, id) ∉ named) ∧
          ∀ regex id, (regex, id) ∈ patterns → regex.isMatch key = false := by
  have hown : ∀ id, id ∈ (named.filterMap fun (name, schema) => if name = key then some schema else none) ↔
      (key, id) ∈ named := fun id => by simp [List.mem_filterMap]
  have hmatching : ∀ id,
      id ∈ (patterns.filterMap fun (regex, schema) => if regex.isMatch key then some schema else none) ↔
        ∃ regex, (regex, id) ∈ patterns ∧ regex.isMatch key = true := fun id => by simp [List.mem_filterMap]
  unfold coveringSchemas
  dsimp only
  split
  · next hnil =>
    simp only [List.eq_nil_iff_forall_not_mem, hown, hmatching, not_exists, not_and, Bool.not_eq_true] at hnil
    obtain ⟨hn, hp⟩ := hnil
    simp only [Option.mem_toList]
    refine ⟨fun ha => .inr (.inr ⟨ha, hn, fun regex id h => hp id regex h⟩), ?_⟩
    rintro (h | ⟨regex, h, hmatch⟩ | ⟨ha, -⟩)
    · exact absurd h (hn id)
    · cases (hp id regex h).symm.trans hmatch
    · exact ha
  · next hsome =>
    rw [List.mem_append, hown, hmatching]
    refine ⟨fun h => h.imp_right .inl, ?_⟩
    rintro (h | h | ⟨-, hn, hp⟩)
    · exact .inl h
    · exact .inr h
    · refine absurd ⟨List.eq_nil_iff_forall_not_mem.mpr fun id h => hn id ((hown id).mp h),
        List.eq_nil_iff_forall_not_mem.mpr fun id h => ?_⟩ hsome
      obtain ⟨regex, h, hmatch⟩ := (hmatching id).mp h
      cases (hp regex id h).symm.trans hmatch

/-- The parts of a value that a constraint looks into, each with a schema for it. A tuple of schemas goes with
the first elements and the additional schema with the rest. -/
def Constraint.parts (c : Constraint) (v : Value) : List (SchemaId × Value) :=
  match c with
  | .items (.single schema) _ => v.elements.map (schema, ·)
  | .items (.tuple schemas) additional =>
    schemas.zip v.elements ++
      additional.toList.flatMap fun schema => (v.elements.drop schemas.length).map (schema, ·)
  | .properties named patterns additional =>
    v.members.flatMap fun (key, member) => (coveringSchemas named patterns additional key).map (·, member)
  | _ => []

/-- The verdict of a constraint, where `below` gives those of the schemas it refers to. -/
def Constraint.verdict (below : SchemaId → Value → Verdict) (c : Constraint) (v : Value) : Verdict :=
  match c with
  | .items .. => .all ((c.parts v).map fun part => below part.1 part.2)
  | .properties .. => .all ((c.parts v).map fun part => below part.1 part.2)
  | .allOf schemas => .all (schemas.map (below · v))
  | .anyOf schemas => .any (schemas.map (below · v))
  | .oneOf schemas => .one (schemas.map (below · v))
  | .not schema => (below schema v).neg
  | _ => .ofBool (c.holds v)

/-- The verdict of a schema on a value at a depth: beyond the limit nothing is known, and within it every
constraint has to hold, where the schemas it refers to are asked one level deeper. -/
def SchemaGraph.verdict (g : SchemaGraph) (maxDepth depth : Nat) (id : SchemaId) (v : Value) : Verdict :=
  if maxDepth < depth then .unknown
  else .all ((g.node id).constraints.map fun c => c.verdict (g.verdict maxDepth (depth + 1)) v)
termination_by maxDepth + 1 - depth

/-! ### The verdict of a report -/

/-- How the issues of a schema are read. -/
def Report.verdict (r : Report) : Verdict :=
  if r.isEmpty then .valid else if r.isDepthLimited then .unknown else .invalid

namespace Report

@[simp] theorem verdict_nil : verdict [] = .valid := rfl

@[simp] theorem verdict_broken (p : Pointer) (c : Constraint) : verdict [.broken p c] = .invalid := rfl

@[simp] theorem verdict_tooDeep (p : Pointer) (limit : Nat) : verdict [.tooDeep p limit] = .unknown := rfl

theorem verdict_eq_valid_iff {r : Report} : r.verdict = .valid ↔ r = [] := by
  unfold verdict
  cases r with
  | nil => simp
  | cons i r => rw [List.isEmpty_cons, if_neg (by decide)]; split <;> simp

theorem verdict_eq_invalid_iff {r : Report} :
    r.verdict = .invalid ↔ ∃ i ∈ r, i.violation.isTooDeep = false := by
  unfold verdict isDepthLimited
  cases r with
  | nil => simp
  | cons i r =>
    simp only [List.isEmpty_cons, Bool.not_false, Bool.true_and, if_neg Bool.false_ne_true]
    by_cases h : (i :: r).all fun i => i.violation.isTooDeep
    · rw [if_pos h]
      simpa using List.all_eq_true.mp h
    · rw [if_neg h]
      simpa only [true_iff, List.all_eq_true, not_forall, exists_prop, Bool.not_eq_true] using h

theorem verdict_eq_unknown_iff {r : Report} :
    r.verdict = .unknown ↔ r ≠ [] ∧ ∀ i ∈ r, i.violation.isTooDeep = true := by
  cases h : r.verdict with
  | valid => simp [verdict_eq_valid_iff.1 h]
  | invalid =>
    obtain ⟨i, hi, hd⟩ := verdict_eq_invalid_iff.1 h
    simp only [reduceCtorEq, false_iff, not_and, not_forall]
    exact fun _ => ⟨i, hi, by simp [hd]⟩
  | unknown =>
    refine iff_of_true rfl ⟨fun hr => ?_, fun i hi => ?_⟩
    · simp [hr] at h
    · by_contra hd
      have := verdict_eq_invalid_iff.2 ⟨i, hi, by simpa using hd⟩
      simp [h] at this

/-- Reports one after the other are read as a conjunction. -/
theorem verdict_append (r s : Report) : verdict (r ++ s) = r.verdict.and s.verdict := by
  cases hr : r.verdict with
  | valid => simp [verdict_eq_valid_iff.1 hr]
  | invalid =>
    obtain ⟨i, hi, hd⟩ := verdict_eq_invalid_iff.1 hr
    exact verdict_eq_invalid_iff.2 ⟨i, List.mem_append_left s hi, hd⟩
  | unknown =>
    obtain ⟨hne, hdeep⟩ := verdict_eq_unknown_iff.1 hr
    cases hs : s.verdict with
    | valid => simp [verdict_eq_valid_iff.1 hs, hr, Verdict.and]
    | invalid =>
      obtain ⟨i, hi, hd⟩ := verdict_eq_invalid_iff.1 hs
      exact verdict_eq_invalid_iff.2 ⟨i, List.mem_append_right r hi, hd⟩
    | unknown =>
      refine verdict_eq_unknown_iff.2 ⟨by simp [hne], fun i hi => ?_⟩
      exact (List.mem_append.mp hi).elim (hdeep i) ((verdict_eq_unknown_iff.1 hs).2 i)

theorem verdict_flatMap {α : Type} (f : α → Report) (l : List α) :
    verdict (l.flatMap f) = .all (l.map fun a => (f a).verdict) := by
  induction l with
  | nil => rfl
  | cons a l ih => rw [List.flatMap_cons, verdict_append, ih, List.map_cons, Verdict.all_cons]

end Report

theorem Outcome.ofReport_eq (r : Report) :
    Outcome.ofReport r =
      match r.verdict with
      | .valid => .valid
      | .invalid => .invalid
      | .unknown => .undecided r := by
  unfold Outcome.ofReport Report.verdict
  split
  · rfl
  · split <;> rfl

/-! ### Constraints that settle on one issue -/

/-- A report settles a question of verdict `t`: it is empty, holds the one issue `i`, or holds places beyond
the limit alone. -/
def Report.Settles (t : Verdict) (i : Issue) (r : Report) : Prop :=
  match t with
  | .valid => r = []
  | .invalid => r = [i]
  | .unknown => r.verdict = .unknown

section Branches

variable (reports : SchemaId → Report)

/-- The search for a branch that accepts stops exactly at one; else it holds the issues of the open ones. -/
theorem firstValid_cases (ids : List SchemaId) :
    (firstValid (fun id => .ofReport (reports id)) ids = none ∧
      .valid ∈ ids.map fun id => (reports id).verdict) ∨
    ∃ r, firstValid (fun id => .ofReport (reports id)) ids = some r ∧
      (.valid ∉ ids.map fun id => (reports id).verdict) ∧ (∀ i ∈ r, i.violation.isTooDeep = true) ∧
      (r = [] ↔ .unknown ∉ ids.map fun id => (reports id).verdict) := by
  induction ids with
  | nil => exact .inr ⟨[], by simp [firstValid]⟩
  | cons id ids ih =>
    simp only [firstValid, Outcome.ofReport_eq, List.map_cons, List.mem_cons]
    cases h : (reports id).verdict with
    | valid => simp
    | invalid =>
      rcases ih with ⟨h1, h2⟩ | ⟨r, h1, h2, h3, h4⟩
      · simp only [Outcome.ofReport_eq] at h1
        exact .inl ⟨h1, .inr h2⟩
      · simp only [Outcome.ofReport_eq] at h1
        exact .inr ⟨r, h1, by simpa using h2, h3, by simpa using h4⟩
    | unknown =>
      obtain ⟨hne, hdeep⟩ := Report.verdict_eq_unknown_iff.1 h
      rcases ih with ⟨h1, h2⟩ | ⟨r, h1, h2, h3, h4⟩
      · simp only [Outcome.ofReport_eq] at h1
        exact .inl ⟨by simp [h1], .inr h2⟩
      · simp only [Outcome.ofReport_eq] at h1
        refine .inr ⟨reports id ++ r, by simp [h1], by simpa using h2, fun i hi => ?_, by simp [hne]⟩
        exact (List.mem_append.mp hi).elim (hdeep i) (h3 i)

/-- The search for a second branch that accepts stops exactly at one; else it has counted those that accept and
holds the issues of the open ones. -/
theorem singleValid_cases (found : Bool) (ids : List SchemaId) :
    (singleValid (fun id => .ofReport (reports id)) found ids = none ∧
      2 ≤ found.toNat + (ids.map fun id => (reports id).verdict).count .valid) ∨
    ∃ one r, singleValid (fun id => .ofReport (reports id)) found ids = some (one, r) ∧
      found.toNat + (ids.map fun id => (reports id).verdict).count .valid = one.toNat ∧
      (∀ i ∈ r, i.violation.isTooDeep = true) ∧
      (r = [] ↔ .unknown ∉ ids.map fun id => (reports id).verdict) := by
  induction ids generalizing found with
  | nil => exact .inr ⟨found, [], by simp [singleValid]⟩
  | cons id ids ih =>
    simp only [Outcome.ofReport_eq] at ih
    simp only [singleValid, Outcome.ofReport_eq, List.map_cons, List.mem_cons, List.count_cons]
    cases h : (reports id).verdict with
    | valid =>
      cases found with
      | true => exact .inl ⟨by simp, by simp only [beq_self_eq_true, if_true, Bool.toNat_true]; omega⟩
      | false =>
        rcases ih true with ⟨h1, h2⟩ | ⟨one, r, h1, h2, h3, h4⟩
        · exact .inl ⟨by simpa using h1, by simpa [Nat.add_comm] using h2⟩
        · exact .inr ⟨one, r, by simpa using h1, by simpa [Nat.add_comm] using h2, h3, by simpa using h4⟩
    | invalid =>
      rcases ih found with ⟨h1, h2⟩ | ⟨one, r, h1, h2, h3, h4⟩
      · exact .inl ⟨h1, by simpa using h2⟩
      · exact .inr ⟨one, r, h1, by simpa using h2, h3, by simpa using h4⟩
    | unknown =>
      obtain ⟨hne, hdeep⟩ := Report.verdict_eq_unknown_iff.1 h
      rcases ih found with ⟨h1, h2⟩ | ⟨one, r, h1, h2, h3, h4⟩
      · exact .inl ⟨by simp [h1], by simpa using h2⟩
      · refine .inr ⟨one, reports id ++ r, by simp [h1], by simpa using h2, fun i hi => ?_, by simp [hne]⟩
        exact (List.mem_append.mp hi).elim (hdeep i) (h3 i)

end Branches

/-- The constraints that pass the issues of the schemas they refer to on, all of which have to hold. -/
def Constraint.isConjunctive : Constraint → Bool
  | .items .. => true
  | .properties .. => true
  | .allOf _ => true
  | _ => false

section Issues

variable {check : SchemaId → Value → Pointer → Report} {below : SchemaId → Value → Verdict}

theorem settles_of_bool {b : Bool} (i : Issue) : Report.Settles (.ofBool b) i (if b then [] else [i]) := by
  cases b <;> rfl

/-- A constraint that is no conjunction settles on one issue of its own. -/
theorem settles_issues {c : Constraint} (hc : c.isConjunctive = false) {v : Value} {p : Pointer}
    (h : ∀ id, (check id v p).verdict = below id v) :
    (c.issues check v p).Settles (c.verdict below v) (.broken p c) := by
  have hmap : ∀ ids : List SchemaId, ids.map (below · v) = ids.map fun id => (check id v p).verdict :=
    fun ids => List.map_congr_left fun id _ => (h id).symm
  cases c with
  | items | properties | allOf => exact absurd hc (by simp [Constraint.isConjunctive])
  | anyOf ids =>
    simp only [Constraint.issues, Constraint.verdict, hmap]
    rcases firstValid_cases (check · v p) ids with ⟨h1, h2⟩ | ⟨r, h1, h2, h3, h4⟩
    · rw [h1, Verdict.any_eq_valid_iff.2 h2]
      rfl
    · rw [h1]
      by_cases hr : r = []
      · have hall : Verdict.any (ids.map fun id => (check id v p).verdict) = .invalid := by
          refine Verdict.any_eq_invalid_iff.2 fun t ht => ?_
          cases t with
          | valid => exact absurd ht h2
          | unknown => exact absurd ht (h4.mp hr)
          | invalid => rfl
        simp [hall, hr, Report.Settles]
      · have hopen : Verdict.any (ids.map fun id => (check id v p).verdict) = .unknown := by
          cases ha : Verdict.any (ids.map fun id => (check id v p).verdict) with
          | valid => exact absurd (Verdict.any_eq_valid_iff.1 ha) h2
          | unknown => rfl
          | invalid =>
            refine absurd (h4.mpr fun hu => ?_) hr
            exact absurd (Verdict.any_eq_invalid_iff.1 ha _ hu) (by decide)
        simpa [hopen, hr, Report.Settles] using Report.verdict_eq_unknown_iff.2 ⟨hr, h3⟩
  | oneOf ids =>
    simp only [Constraint.issues, Constraint.verdict, Verdict.one, hmap]
    rcases singleValid_cases (check · v p) false ids with ⟨h1, h2⟩ | ⟨one, r, h1, h2, h3, h4⟩
    · rw [h1, if_pos (by simpa using h2)]
      rfl
    · have hcount : (ids.map fun id => (check id v p).verdict).count .valid = one.toNat := by simpa using h2
      rw [h1, hcount, if_neg (by cases one <;> decide)]
      by_cases hr : r = []
      · rw [if_neg (h4.mp hr)]
        cases one <;> simp [hr, Report.Settles, Verdict.ofBool]
      · rw [if_pos (by simpa [hr] using h4)]
        simpa [hr, Report.Settles] using Report.verdict_eq_unknown_iff.2 ⟨hr, h3⟩
  | not id =>
    simp only [Constraint.issues, Constraint.verdict, Outcome.ofReport_eq, ← h]
    cases ht : (check id v p).verdict with
    | valid => rfl
    | invalid => rfl
    | unknown => exact ht
  | _ => exact settles_of_bool _

theorem verdict_of_settles {t : Verdict} {p : Pointer} {c : Constraint} {r : Report}
    (h : r.Settles t (.broken p c)) : r.verdict = t := by
  cases t with
  | valid => exact Report.verdict_eq_valid_iff.2 h
  | invalid => rw [show r = [.broken p c] from h]; rfl
  | unknown => exact h

/-! ### Constraints that pass issues on -/

theorem memberSchemas_eq (named : List (String × SchemaId)) (patterns : List (Regex × SchemaId))
    (additional : Option SchemaId) (key : String) :
    memberSchemas named patterns additional key = coveringSchemas named patterns additional key := by
  have hown : (named.filter fun entry => entry.1 == key).map (·.2) =
      named.filterMap fun (name, schema) => if name = key then some schema else none := by
    induction named with
    | nil => rfl
    | cons entry named ih => by_cases he : entry.1 = key <;> simp [he, ih]
  have hmatching : (patterns.filter fun entry => entry.1.isMatch key).map (·.2) =
      patterns.filterMap fun (regex, schema) => if regex.isMatch key then some schema else none := by
    induction patterns with
    | nil => rfl
    | cons entry patterns ih => by_cases he : entry.1.isMatch key <;> simp [he, ih]
  simp only [memberSchemas, coveringSchemas, hown, hmatching, List.isEmpty_iff, List.append_eq_nil_iff]

/-- Elements from the index `k` on: a tuple runs along with them and leaves the rest to the additional schema. -/
theorem all_tuple (below : SchemaId → Value → Verdict) (ids : List SchemaId) (additional : Option SchemaId)
    (l : List Value) (k : Nat) :
    Verdict.all ((l.zipIdx k).map fun (element, index) =>
        match ids[index]? <|> additional with
        | some id => below id element
        | none => .valid) =
      .all (((ids.drop k).zip l ++
        additional.toList.flatMap fun id => (l.drop (ids.length - k)).map (id, ·)).map
          fun part => below part.1 part.2) := by
  induction l generalizing k with
  | nil => cases additional <;> simp
  | cons e l ih =>
    rw [List.zipIdx_cons, List.map_cons, Verdict.all_cons, ih (k + 1)]
    by_cases hk : k < ids.length
    · rw [List.drop_eq_getElem_cons hk, show ids.length - k = (ids.length - (k + 1)) + 1 by omega]
      simp only [List.zip_cons_cons, List.cons_append, List.map_cons, Verdict.all_cons, List.drop_succ_cons,
        List.getElem?_eq_getElem hk]
      rfl
    · rw [List.drop_eq_nil_of_le (by omega : ids.length ≤ k), List.drop_eq_nil_of_le (by omega : ids.length ≤ k + 1),
        show ids.length - k = 0 by omega, show ids.length - (k + 1) = 0 by omega]
      cases additional <;> simp [List.getElem?_eq_none (by omega : ids.length ≤ k)]

/-- A conjunction is read as the conjunction of its parts or branches. -/
theorem verdict_issues_of_conjunctive {c : Constraint} (hc : c.isConjunctive = true) {v : Value} {p : Pointer}
    (h : ∀ id v p, (check id v p).verdict = below id v) :
    (c.issues check v p).verdict = c.verdict below v := by
  cases c with
  | items schemas additional =>
    simp only [Constraint.issues, Report.verdict_flatMap, Constraint.verdict]
    have hpart : ∀ element index, Report.verdict (match schemas.schemaAt? additional index with
          | some id => check id element (p.childIndex index)
          | none => []) =
        match schemas.schemaAt? additional index with
        | some id => below id element
        | none => .valid := by
      intro element index
      cases schemas.schemaAt? additional index with
      | none => rfl
      | some id => exact h _ _ _
    refine (congrArg Verdict.all (List.map_congr_left fun x _ => hpart x.1 x.2)).trans ?_
    cases schemas with
    | single id =>
      simp only [ItemSchemas.schemaAt?, Constraint.parts, List.map_map]
      congr 1
      conv_rhs => rw [← List.zipIdx_map_fst 0 v.elements, List.map_map]
      rfl
    | tuple ids => exact all_tuple below ids additional v.elements 0
  | properties named patterns additional =>
    simp only [Constraint.issues, Report.verdict_flatMap, Constraint.verdict, Constraint.parts, h, memberSchemas_eq]
    generalize v.members = ms
    induction ms with
    | nil => rfl
    | cons m ms ih =>
      simp only [List.map_cons, List.flatMap_cons, List.map_append, Verdict.all_append, Verdict.all_cons, ih,
        List.map_map]
      rfl
  | allOf ids =>
    simp only [Constraint.issues, Report.verdict_flatMap, Constraint.verdict]
    congr 1
    refine List.map_congr_left fun id _ => ?_
    rw [← h id v p]
    split
    · rfl
    · next hr =>
      refine Report.verdict_eq_invalid_iff.2 ⟨_, List.mem_cons_self, rfl⟩ |>.trans ?_
      simp only [Bool.or_eq_true, not_or] at hr
      simp [Report.verdict, hr.1, hr.2]
  | _ => exact absurd hc (by simp [Constraint.isConjunctive])

/-- The issues of a constraint are read as its verdict, once those of the schemas it refers to are. -/
theorem verdict_issues (h : ∀ id v p, (check id v p).verdict = below id v) (c : Constraint) (v : Value)
    (p : Pointer) : (c.issues check v p).verdict = c.verdict below v := by
  cases hc : c.isConjunctive with
  | true => exact verdict_issues_of_conjunctive hc h
  | false => exact verdict_of_settles (settles_issues hc fun id => h id v p)

end Issues

/-! ### Checks -/

/-- At every depth the report of a check is read as the verdict of the schema. -/
theorem verdict_check (g : SchemaGraph) (maxDepth remaining depth : Nat) (hd : remaining + depth = maxDepth + 1)
    (id : SchemaId) (v : Value) (p : Pointer) :
    (g.check maxDepth remaining id v p).verdict = g.verdict maxDepth depth id v := by
  induction remaining generalizing depth id v p with
  | zero =>
    rw [SchemaGraph.verdict, if_pos (by omega)]
    rfl
  | succ remaining ih =>
    rw [SchemaGraph.verdict, if_neg (by omega), SchemaGraph.check, Report.verdict_flatMap]
    congr 1
    refine List.map_congr_left fun c _ => ?_
    exact verdict_issues (fun id v p => ih (depth + 1) (by omega) id v p) c v p

theorem isTooDeep_iff_keyword (i : Issue) : i.violation.isTooDeep = true ↔ i.keyword = "depth" := by
  obtain ⟨p, violation, message⟩ := i
  cases violation with
  | tooDeep => simp [Violation.isTooDeep, Issue.keyword, Violation.keyword]
  | constraint c =>
    have hc : c.keyword ≠ "depth" := by cases c <;> simp [Constraint.keyword]
    simp [Violation.isTooDeep, Issue.keyword, Violation.keyword, hc]

/-- A schema accepts a value if and only if the verdict is valid. -/
theorem validate_eq_nil_iff_verdict {s : Schema} {maxDepth : Nat} {v : Value} :
    s.validate maxDepth v = [] ↔ s.graph.verdict maxDepth 0 s.id v = .valid := by
  rw [← verdict_check s.graph maxDepth (maxDepth + 1) 0 rfl s.id v .root]
  exact Report.verdict_eq_valid_iff.symm

/-- A schema accepts a value if each of its constraints does. -/
theorem validate_eq_nil_iff {g : SchemaGraph} {id : SchemaId} {maxDepth : Nat} {v : Value} :
    (Schema.mk g id).validate maxDepth v = [] ↔
      ∀ c ∈ (g.node id).constraints, c.verdict (g.verdict maxDepth 1) v = .valid := by
  rw [validate_eq_nil_iff_verdict, SchemaGraph.verdict, if_neg (by omega), Verdict.all_eq_valid_iff,
    List.forall_mem_map]

/-- **The verdict of validation.** The issues of a value tell the verdict of its schema: there are none exactly
when it is valid, one of them is no excess of the depth exactly when it is invalid, and there are some, all of
them excesses of the depth, exactly when it is unknown. -/
theorem validate_verdict (s : Schema) (maxDepth : Nat) (v : Value) :
    (s.validate maxDepth v = [] ↔ s.graph.verdict maxDepth 0 s.id v = .valid) ∧
    ((∃ i ∈ s.validate maxDepth v, i.keyword ≠ "depth") ↔ s.graph.verdict maxDepth 0 s.id v = .invalid) ∧
    ((s.validate maxDepth v ≠ [] ∧ ∀ i ∈ s.validate maxDepth v, i.keyword = "depth") ↔
      s.graph.verdict maxDepth 0 s.id v = .unknown) := by
  have h : (s.validate maxDepth v).verdict = s.graph.verdict maxDepth 0 s.id v :=
    verdict_check s.graph maxDepth (maxDepth + 1) 0 rfl s.id v .root
  simp only [← h, ← isTooDeep_iff_keyword, ne_eq, Bool.not_eq_true]
  exact ⟨Report.verdict_eq_valid_iff.symm, Report.verdict_eq_invalid_iff.symm,
    Report.verdict_eq_unknown_iff.symm⟩

end JsonSchema
