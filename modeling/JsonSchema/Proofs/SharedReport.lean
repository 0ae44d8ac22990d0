import JsonSchema.Validation
import Mathlib.Data.List.Basic

/-!
Validation with one report that is passed along (`SchemaGraph.record`). A check adds what it finds to the end of the
report; only the branches of a combination have reports of their own, and what these say decides what is added to the
shared one. A step is told by what it adds, whatever was reported before (`Report.Adds`). Sequences and loops add what
their steps add, one after the other, so a check adds the issues that are put together without a shared report
(`SchemaGraph.adds_record`): earlier issues decide nothing.

The place where a check starts decides nothing either. It stands in front of the places of all issues, and whether a
branch accepts, rejects or stays undecided is seen from the issues without their places (`SchemaGraph.check_append`).
-/

namespace JsonSchema

/-! ### A shared report -/

namespace Report

/-- Adds issues at the end of the report. -/
def add (issues : Report) : StateM Report Unit := modify (· ++ issues)

/-- The issues that a check reports on its own. -/
def own (check : StateM Report Unit) : Report := (check.run []).2

end Report

/-- Looks for a branch that accepts, and collects the issues of those that are undecided on the way. -/
def searchValid (outcome : SchemaId → Outcome) (undecided : Report) : List SchemaId → Option Report
  | [] => some undecided
  | id :: rest =>
    match outcome id with
    | .valid => none
    | .invalid => searchValid outcome undecided rest
    | .undecided issues => searchValid outcome (undecided ++ issues) rest

/-- Counts the branches that accept, up to the second one, and collects the issues of those that are undecided on the
way. -/
def searchSingle (outcome : SchemaId → Outcome) (found : Nat) (undecided : Report) :
    List SchemaId → Option (Nat × Report)
  | [] => some (found, undecided)
  | id :: rest =>
    match outcome id with
    | .valid => if 1 < found + 1 then none else searchSingle outcome (found + 1) undecided rest
    | .invalid => searchSingle outcome found undecided rest
    | .undecided issues => searchSingle outcome found (undecided ++ issues) rest

/-- Visits the schemas of the entries that match, and says whether there were any, then or before. -/
def visitMatching {α : Type} (isMatch : α → Bool) (visit : SchemaId → StateM Report Unit) (matched : Bool) :
    List (α × SchemaId) → StateM Report Bool
  | [] => return matched
  | (a, id) :: entries =>
    if isMatch a then do
      visit id
      visitMatching isMatch visit true entries
    else visitMatching isMatch visit matched entries

/-- Ends a combination: if no branch is undecided it holds or not, and else it is left open with their issues. -/
def conclude (undecided : Report) (holds : Bool) : StateM Report (Option Bool) :=
  if undecided.isEmpty then return some holds
  else do
    Report.add undecided
    return some true

namespace Constraint

/-- Visits the schemas that a constraint refers to, and says whether the constraint holds; a constraint on the value
alone has none, and nothing is said. -/
def settle? (visit : SchemaId → Value → Pointer → StateM Report Unit) (c : Constraint) (v : Value) (p : Pointer) :
    StateM Report (Option Bool) :=
  let outcome (id : SchemaId) := Outcome.ofReport (Report.own (visit id v p))
  match c with
  | .items schemas additional => do
    v.elements.zipIdx.forM fun (element, index) =>
      match schemas.schemaAt? additional index with
      | some id => visit id element (p.childIndex index)
      | none => pure ()
    return some true
  | .properties named patterns additional => do
    v.members.forM fun (key, member) => do
      let matched ← visitMatching (· == key) (visit · member (p.child key)) false named
      let matched ← visitMatching (·.isMatch key) (visit · member (p.child key)) matched patterns
      match matched, additional with
      | false, some id => visit id member (p.child key)
      | _, _ => pure ()
    return some true
  | .allOf schemas => do
    schemas.forM fun id => do
      let branch := Report.own (visit id v p)
      unless branch.isEmpty || branch.isDepthLimited do Report.add [.broken p c]
      Report.add branch
    return some true
  | .anyOf schemas =>
    match searchValid outcome [] schemas with
    | none => return some true
    | some undecided => conclude undecided false
  | .oneOf schemas =>
    match searchSingle outcome 0 [] schemas with
    | none => return some false
    | some (found, undecided) => conclude undecided (found == 1)
  | .not schema =>
    match outcome schema with
    | .valid => return some false
    | .invalid => return some true
    | .undecided issues => do
      Report.add issues
      return some true
  | _ => return none

/-- Checks a constraint, and adds an issue of its own if it does not hold. -/
def record (visit : SchemaId → Value → Pointer → StateM Report Unit) (c : Constraint) (v : Value) (p : Pointer) :
    StateM Report Unit := do
  let applied ← c.settle? visit v p
  unless applied.getD (c.holds v) do Report.add [.broken p c]

end Constraint

/-- Checks a value at a place and a depth, and adds the issues to the report. -/
def SchemaGraph.record (g : SchemaGraph) (limit depth : Nat) (id : SchemaId) (v : Value) (p : Pointer) :
    StateM Report Unit :=
  if limit < depth then Report.add [.tooDeep p limit]
  else (g.node id).constraints.forM fun c => c.record (g.record limit (depth + 1)) v p
termination_by limit + 1 - depth

/-! ### What is added -/

namespace Report

/-- The step gives `a` and adds the issues to the report, whatever is in it. -/
def Adds {α : Type} (step : StateM Report α) (a : α) (issues : Report) : Prop :=
  ∀ before, step.run before = (a, before ++ issues)

variable {α β : Type} {step : StateM Report α} {next : α → StateM Report β} {a : α} {b : β} {r s : Report}

theorem Adds.pure (a : α) : Adds (pure a) a [] := fun before => by
  rw [List.append_nil]
  rfl

theorem Adds.add (issues : Report) : Adds (add issues) () issues := fun _ => rfl

theorem Adds.bind (hstep : Adds step a r) (hnext : Adds (next a) b s) : Adds (step >>= next) b (r ++ s) := by
  intro before
  rw [StateT.run_bind, hstep before]
  exact (hnext (before ++ r)).trans (by rw [List.append_assoc])

/-- A step is followed by the answer alone. -/
theorem Adds.answer (hstep : Adds step a r) (b : β) : Adds (do let _ ← step; return b) b r := by
  intro before
  rw [StateT.run_bind, hstep before]
  rfl

theorem Adds.own {check : StateM Report Unit} (h : Adds check () r) : own check = r := by
  rw [Report.own, h []]
  rfl

theorem Adds.forM {f : β → StateM Report PUnit} {g : β → Report} (h : ∀ b, Adds (f b) () (g b)) (l : List β) :
    Adds (l.forM f) () (l.flatMap g) := by
  induction l with
  | nil => exact .pure ()
  | cons b l ih =>
    show Adds (f b >>= fun _ => l.forM f) () (g b ++ l.flatMap g)
    exact (h b).bind ih

end Report

/-! ### Searches -/

section Searches

variable (outcome : SchemaId → Outcome) (undecided : Report) (ids : List SchemaId)

theorem searchValid_eq : searchValid outcome undecided ids = (firstValid outcome ids).map (undecided ++ ·) := by
  induction ids generalizing undecided with
  | nil => simp [searchValid, firstValid]
  | cons id ids ih =>
    rw [searchValid, firstValid]
    cases outcome id with
    | valid => rfl
    | invalid => exact ih undecided
    | undecided issues =>
      dsimp only
      rw [ih, Option.map_map]
      exact congrArg (Option.map · _) (funext fun rest => List.append_assoc undecided issues rest)

theorem searchSingle_eq (found : Bool) : searchSingle outcome found.toNat undecided ids =
    (singleValid outcome found ids).map fun (one, more) => (one.toNat, undecided ++ more) := by
  induction ids generalizing found undecided with
  | nil => simp [searchSingle, singleValid]
  | cons id ids ih =>
    rw [searchSingle, singleValid]
    cases outcome id with
    | valid =>
      cases found with
      | true => rfl
      | false => exact ih undecided true
    | invalid => exact ih undecided found
    | undecided issues =>
      dsimp only
      rw [ih, Option.map_map]
      exact congrArg (Option.map · _) (funext fun (one, more) => by simp)

end Searches

/-! ### Constraints -/

section Constraints

open Report

variable {visit : SchemaId → Value → Pointer → StateM Report Unit} {check : SchemaId → Value → Pointer → Report}

/-- The entries that match are visited in their order. -/
theorem adds_visitMatching {α : Type} {visit : SchemaId → StateM Report Unit} {check : SchemaId → Report}
    (h : ∀ id, Adds (visit id) () (check id)) (isMatch : α → Bool) (matched : Bool) (entries : List (α × SchemaId)) :
    Adds (visitMatching isMatch visit matched entries) (matched || entries.any (isMatch ·.1))
      (((entries.filter (isMatch ·.1)).map (·.2)).flatMap check) := by
  induction entries generalizing matched with
  | nil => simpa [visitMatching] using Adds.pure matched
  | cons entry entries ih =>
    obtain ⟨a, id⟩ := entry
    rw [visitMatching]
    cases ha : isMatch a with
    | true => simpa [ha] using (h id).bind (ih true)
    | false => simpa [ha] using ih matched

/-- What a constraint adds by its schemas, and then an issue of its own if it does not hold. -/
theorem adds_record_of_settle {c : Constraint} {v : Value} {p : Pointer} {applied : Option Bool} {r : Report}
    (hsettle : Adds (c.settle? visit v p) applied r) :
    Adds (c.record visit v p) () (r ++ if applied.getD (c.holds v) then [] else [.broken p c]) := by
  refine hsettle.bind ?_
  cases applied.getD (c.holds v) with
  | true => exact .pure ()
  | false => exact .add _

theorem adds_record_of_holds {c : Constraint} {v : Value} {p : Pointer} {r : Report}
    (hsettle : Adds (c.settle? visit v p) (some true) r) : Adds (c.record visit v p) () r := by
  have hrecord := adds_record_of_settle hsettle
  rwa [Option.getD_some, if_pos rfl, List.append_nil] at hrecord

theorem adds_record_of_fails {c : Constraint} {v : Value} {p : Pointer}
    (hsettle : Adds (c.settle? visit v p) (some false) []) : Adds (c.record visit v p) () [.broken p c] :=
  adds_record_of_settle hsettle

theorem adds_record_alone {c : Constraint} {v : Value} {p : Pointer} (hsettle : c.settle? visit v p = pure none) :
    Adds (c.record visit v p) () (if c.holds v then [] else [.broken p c]) :=
  adds_record_of_settle (hsettle ▸ Adds.pure none)

theorem adds_record_of_conclude {c : Constraint} {v : Value} {p : Pointer} {undecided : Report} {holds : Bool}
    (hsettle : c.settle? visit v p = conclude undecided holds) : Adds (c.record visit v p) ()
      (if undecided.isEmpty then if holds then [] else [.broken p c] else undecided) := by
  cases undecided with
  | nil =>
    have hadds : Adds (c.settle? visit v p) (some holds) [] := by
      rw [hsettle]
      exact Adds.pure (some holds)
    exact adds_record_of_settle hadds
  | cons i rest =>
    have hadds : Adds (c.settle? visit v p) (some true) (i :: rest) := by
      rw [hsettle]
      exact (Adds.add (i :: rest)).answer (some true)
    exact adds_record_of_holds hadds

variable (h : ∀ id v p, Adds (visit id v p) () (check id v p))

include h

theorem outcome_own (v : Value) (p : Pointer) (id : SchemaId) :
    Outcome.ofReport (own (visit id v p)) = .ofReport (check id v p) := by rw [(h id v p).own]

/-- A member is checked against the schemas of its name, then against those whose pattern it matches, and against the
additional one if there are none. -/
theorem adds_member (named : List (String × SchemaId)) (patterns : List (Regex × SchemaId))
    (additional : Option SchemaId) (key : String) (v : Value) (p : Pointer) :
    Adds
      (do
        let matched ← visitMatching (· == key) (visit · v p) false named
        let matched ← visitMatching (·.isMatch key) (visit · v p) matched patterns
        match matched, additional with
        | false, some id => visit id v p
        | _, _ => pure ())
      () ((memberSchemas named patterns additional key).flatMap fun id => check id v p) := by
  have hvisit : ∀ id, Adds (visit id v p) () (check id v p) := fun id => h id v p
  have hnamed := adds_visitMatching hvisit (· == key) false named
  have hpatterns := adds_visitMatching hvisit (·.isMatch key) (named.any (·.1 == key)) patterns
  -- the additional schema is visited exactly if the list of those that match is empty
  have hempty : ((named.filter (·.1 == key)).map (·.2) ++ (patterns.filter (·.1.isMatch key)).map (·.2)).isEmpty =
      !(named.any (·.1 == key) || patterns.any (·.1.isMatch key)) := by
    rw [Bool.eq_iff_iff]
    simp
  have hlast : Adds
      (match named.any (·.1 == key) || patterns.any (·.1.isMatch key), additional with
        | false, some id => visit id v p
        | _, _ => pure ())
      () (if named.any (·.1 == key) || patterns.any (·.1.isMatch key) then []
        else additional.toList.flatMap fun id => check id v p) := by
    cases named.any (·.1 == key) || patterns.any (·.1.isMatch key) with
    | true => exact .pure ()
    | false =>
      cases additional with
      | none => exact .pure ()
      | some id => simpa using hvisit id
  have hreport : ((memberSchemas named patterns additional key).flatMap fun id => check id v p) =
      (((named.filter (·.1 == key)).map (·.2)).flatMap fun id => check id v p) ++
        ((((patterns.filter (·.1.isMatch key)).map (·.2)).flatMap fun id => check id v p) ++
          if named.any (·.1 == key) || patterns.any (·.1.isMatch key) then []
          else additional.toList.flatMap fun id => check id v p) := by
    unfold memberSchemas
    dsimp only
    rw [hempty, ← List.append_assoc, ← List.flatMap_append]
    cases hany : named.any (·.1 == key) || patterns.any (·.1.isMatch key) with
    | true => simp
    | false =>
      rw [hany, Bool.not_false, List.isEmpty_iff] at hempty
      rw [hempty]
      rfl
  rw [hreport]
  exact hnamed.bind (hpatterns.bind hlast)

theorem adds_items (schemas : ItemSchemas) (additional : Option SchemaId) (v : Value) (p : Pointer) :
    Adds ((Constraint.items schemas additional).settle? visit v p) (some true)
      ((Constraint.items schemas additional).issues check v p) := by
  refine (Adds.forM (fun x => ?_) v.elements.zipIdx).answer (some true)
  obtain ⟨element, index⟩ := x
  dsimp only
  cases schemas.schemaAt? additional index with
  | some id => exact h id element (p.childIndex index)
  | none => exact .pure ()

theorem adds_properties (named : List (String × SchemaId)) (patterns : List (Regex × SchemaId))
    (additional : Option SchemaId) (v : Value) (p : Pointer) :
    Adds ((Constraint.properties named patterns additional).settle? visit v p) (some true)
      ((Constraint.properties named patterns additional).issues check v p) :=
  (Adds.forM (fun (key, member) => adds_member h named patterns additional key member (p.child key))
    v.members).answer (some true)

theorem adds_allOf (ids : List SchemaId) (v : Value) (p : Pointer) :
    Adds ((Constraint.allOf ids).settle? visit v p) (some true) ((Constraint.allOf ids).issues check v p) := by
  refine (Adds.forM (fun id => ?_) ids).answer (some true)
  dsimp only
  rw [(h id v p).own]
  split
  · exact .add _
  · exact (Adds.add [.broken p (.allOf ids)]).bind (.add (check id v p))

theorem adds_anyOf (ids : List SchemaId) (v : Value) (p : Pointer) :
    Adds ((Constraint.anyOf ids).record visit v p) () ((Constraint.anyOf ids).issues check v p) := by
  have houtcome := funext (outcome_own h v p)
  have hsearch := searchValid_eq (fun id => .ofReport (check id v p)) [] ids
  unfold Constraint.issues
  dsimp only
  cases hfirst : firstValid (fun id => .ofReport (check id v p)) ids with
  | none =>
    have hsettle : (Constraint.anyOf ids).settle? visit v p = pure (some true) := by
      rw [Constraint.settle?, houtcome, hsearch, hfirst]
      rfl
    exact adds_record_of_holds (hsettle ▸ Adds.pure (some true))
  | some undecided =>
    have hsettle : (Constraint.anyOf ids).settle? visit v p = conclude undecided false := by
      rw [Constraint.settle?, houtcome, hsearch, hfirst]
      rfl
    exact adds_record_of_conclude hsettle

theorem adds_oneOf (ids : List SchemaId) (v : Value) (p : Pointer) :
    Adds ((Constraint.oneOf ids).record visit v p) () ((Constraint.oneOf ids).issues check v p) := by
  have houtcome := funext (outcome_own h v p)
  have hsearch := searchSingle_eq (fun id => .ofReport (check id v p)) [] ids false
  unfold Constraint.issues
  dsimp only
  cases hsingle : singleValid (fun id => .ofReport (check id v p)) false ids with
  | none =>
    have hsettle : (Constraint.oneOf ids).settle? visit v p = pure (some false) := by
      rw [Constraint.settle?, houtcome, ← Bool.toNat_false, hsearch, hsingle]
      rfl
    exact adds_record_of_fails (hsettle ▸ Adds.pure (some false))
  | some found =>
    obtain ⟨one, undecided⟩ := found
    have hsettle : (Constraint.oneOf ids).settle? visit v p = conclude undecided one := by
      rw [Constraint.settle?, houtcome, ← Bool.toNat_false, hsearch, hsingle]
      cases one <;> rfl
    exact adds_record_of_conclude hsettle

theorem adds_not (id : SchemaId) (v : Value) (p : Pointer) :
    Adds ((Constraint.not id).record visit v p) () ((Constraint.not id).issues check v p) := by
  have houtcome := outcome_own h v p id
  unfold Constraint.issues
  dsimp only
  cases hbranch : Outcome.ofReport (check id v p) with
  | valid =>
    have hsettle : (Constraint.not id).settle? visit v p = pure (some false) := by
      simp only [Constraint.settle?, houtcome, hbranch]
    exact adds_record_of_fails (hsettle ▸ Adds.pure (some false))
  | invalid =>
    have hsettle : (Constraint.not id).settle? visit v p = pure (some true) := by
      simp only [Constraint.settle?, houtcome, hbranch]
    exact adds_record_of_holds (hsettle ▸ Adds.pure (some true))
  | undecided issues =>
    have hsettle : (Constraint.not id).settle? visit v p = do
        Report.add issues
        return some true := by
      simp only [Constraint.settle?, houtcome, hbranch]
    exact adds_record_of_holds (hsettle ▸ (Adds.add issues).answer (some true))

/-- A constraint adds its issues to the shared report, if the schemas it refers to add theirs. -/
theorem adds_record (c : Constraint) (v : Value) (p : Pointer) : Adds (c.record visit v p) () (c.issues check v p) := by
  cases c with
  | items schemas additional => exact adds_record_of_holds (adds_items h schemas additional v p)
  | properties named patterns additional => exact adds_record_of_holds (adds_properties h named patterns additional v p)
  | allOf ids => exact adds_record_of_holds (adds_allOf h ids v p)
  | anyOf ids => exact adds_anyOf h ids v p
  | oneOf ids => exact adds_oneOf h ids v p
  | not id => exact adds_not h id v p
  | _ => exact adds_record_alone rfl

end Constraints

/-- **Earlier issues decide nothing.** A check adds to a report the issues that it finds on its own. -/
theorem SchemaGraph.adds_check (g : SchemaGraph) (limit depth : Nat) (id : SchemaId) (v : Value) (p : Pointer) :
    Report.Adds (g.record limit depth id v p) () (g.check limit (limit + 1 - depth) id v p) := by
  -- by the depth that is left; it is one less for the schemas of a constraint, so these add their issues
  induction hremaining : limit + 1 - depth generalizing depth id v p with
  | zero =>
    rw [SchemaGraph.record, if_pos (by omega)]
    exact .add _
  | succ remaining ih =>
    rw [SchemaGraph.record, if_neg (by omega)]
    refine .forM (fun c => ?_) _
    exact adds_record (fun id v p => ih (depth + 1) id v p (by omega)) c v p

/-! ### Places -/

namespace Pointer

@[simp] theorem append_root (p : Pointer) : p ++ root = p := congrArg Pointer.mk (List.append_nil p.atoms)

theorem append_child (p q : Pointer) (atom : String) : p ++ q.child atom = (p ++ q).child atom :=
  congrArg Pointer.mk (List.append_assoc p.atoms q.atoms [atom]).symm

theorem append_childIndex (p q : Pointer) (index : Nat) : p ++ q.childIndex index = (p ++ q).childIndex index :=
  p.append_child q (toString index)

end Pointer

/-- The issue as it is seen from further up, where a pointer leads to the place that its own pointer starts from. -/
def Issue.under (p : Pointer) (i : Issue) : Issue := { i with pointer := p ++ i.pointer }

namespace Report

variable (p : Pointer) (r : Report)

theorem isEmpty_under : List.isEmpty (r.map (Issue.under p)) = List.isEmpty r := List.isEmpty_map

theorem isDepthLimited_under : isDepthLimited (r.map (Issue.under p)) = r.isDepthLimited := by
  rw [isDepthLimited, isEmpty_under, List.all_map]
  rfl

end Report

/-- The outcome with the issues as they are seen from further up. -/
def Outcome.under (p : Pointer) : Outcome → Outcome
  | .valid => .valid
  | .invalid => .invalid
  | .undecided issues => .undecided (issues.map (Issue.under p))

theorem Outcome.ofReport_under (p : Pointer) (r : Report) :
    Outcome.ofReport (r.map (Issue.under p)) = (Outcome.ofReport r).under p := by
  rw [ofReport, ofReport, Report.isEmpty_under, Report.isDepthLimited_under]
  split
  · rfl
  · split <;> rfl

theorem firstValid_under (p : Pointer) (outcome : SchemaId → Outcome) (ids : List SchemaId) :
    firstValid (fun id => (outcome id).under p) ids = (firstValid outcome ids).map (List.map (Issue.under p)) := by
  induction ids with
  | nil => rfl
  | cons id ids ih =>
    rw [firstValid, firstValid]
    cases outcome id with
    | valid => rfl
    | invalid => exact ih
    | undecided issues =>
      show (firstValid (fun id => (outcome id).under p) ids).map (issues.map (Issue.under p) ++ ·) = _
      rw [ih, Option.map_map, Option.map_map]
      exact congrArg (Option.map · _) (funext fun rest => List.map_append.symm)

theorem singleValid_under (p : Pointer) (outcome : SchemaId → Outcome) (found : Bool) (ids : List SchemaId) :
    singleValid (fun id => (outcome id).under p) found ids =
      (singleValid outcome found ids).map fun (one, undecided) => (one, undecided.map (Issue.under p)) := by
  induction ids generalizing found with
  | nil => rfl
  | cons id ids ih =>
    rw [singleValid, singleValid]
    cases outcome id with
    | valid =>
      cases found with
      | true => rfl
      | false => exact ih true
    | invalid => exact ih found
    | undecided issues =>
      show (singleValid (fun id => (outcome id).under p) found ids).map _ = _
      rw [ih, Option.map_map, Option.map_map]
      exact congrArg (Option.map · _) (funext fun (one, rest) => by simp)

section Places

variable {check : SchemaId → Value → Pointer → Report} {p : Pointer}

/-- If the place enters the issues of the schemas only in front of their places, then so it does for a constraint. -/
theorem issues_append (h : ∀ id v q, check id v (p ++ q) = (check id v q).map (Issue.under p)) (c : Constraint)
    (v : Value) (q : Pointer) : c.issues check v (p ++ q) = (c.issues check v q).map (Issue.under p) := by
  have houtcome : (fun id => Outcome.ofReport (check id v (p ++ q))) =
      fun id => (Outcome.ofReport (check id v q)).under p := funext fun id => by rw [h, Outcome.ofReport_under]
  cases c with
  | items schemas additional =>
    simp only [Constraint.issues, List.map_flatMap]
    refine List.flatMap_congr fun (element, index) _ => ?_
    dsimp only
    cases schemas.schemaAt? additional index with
    | some id =>
      rw [← Pointer.append_childIndex]
      exact h id element (q.childIndex index)
    | none => rfl
  | properties named patterns additional =>
    simp only [Constraint.issues, List.map_flatMap, ← Pointer.append_child, h]
  | allOf ids =>
    simp only [Constraint.issues, List.map_flatMap]
    refine List.flatMap_congr fun id _ => ?_
    rw [h, Report.isEmpty_under, Report.isDepthLimited_under]
    split <;> rfl
  | anyOf ids =>
    simp only [Constraint.issues, houtcome, firstValid_under]
    cases firstValid (fun id => Outcome.ofReport (check id v q)) ids with
    | none => rfl
    | some undecided =>
      simp only [Option.map_some, Report.isEmpty_under]
      split <;> rfl
  | oneOf ids =>
    simp only [Constraint.issues, houtcome, singleValid_under]
    cases singleValid (fun id => Outcome.ofReport (check id v q)) false ids with
    | none => rfl
    | some found =>
      obtain ⟨one, undecided⟩ := found
      simp only [Option.map_some, Report.isEmpty_under]
      cases undecided.isEmpty <;> cases one <;> rfl
  | not id =>
    simp only [Constraint.issues, h, Outcome.ofReport_under]
    cases Outcome.ofReport (check id v q) <;> rfl
  | _ =>
    simp only [Constraint.issues]
    split <;> rfl

end Places

/-- **The place where a check starts decides nothing.** It stands in front of the places of the issues. -/
theorem SchemaGraph.check_append (g : SchemaGraph) (limit remaining : Nat) (id : SchemaId) (v : Value) (p q : Pointer) :
    g.check limit remaining id v (p ++ q) = (g.check limit remaining id v q).map (Issue.under p) := by
  induction remaining generalizing id v q with
  | zero => rfl
  | succ remaining ih =>
    rw [SchemaGraph.check, SchemaGraph.check, List.map_flatMap]
    exact List.flatMap_congr fun c _ => issues_append ih c v q

/-- **A check only appends, and the place enters the pointers alone.** Whatever was reported before stays in front; what
is added are the issues that a check from the root finds on its own, in the same order and with the same violations and
messages, each at its place below the one where the check started. From depth 0 these are the issues of validation. -/
theorem SchemaGraph.record_run (g : SchemaGraph) (limit depth : Nat) (id : SchemaId) (v : Value) (p : Pointer)
    (before : Report) :
    ((g.record limit depth id v p).run before).2 =
        before ++ (Report.own (g.record limit depth id v .root)).map (Issue.under p) ∧
      Report.own (g.record limit depth id v .root) = g.check limit (limit + 1 - depth) id v .root := by
  have hroot := (g.adds_check limit depth id v .root).own
  have hplace : g.check limit (limit + 1 - depth) id v p =
      (g.check limit (limit + 1 - depth) id v .root).map (Issue.under p) := by
    rw [← g.check_append, Pointer.append_root]
  refine ⟨?_, hroot⟩
  rw [g.adds_check limit depth id v p before, hplace, hroot]

end JsonSchema
