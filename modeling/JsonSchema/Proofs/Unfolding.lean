import JsonSchema.Proofs.Equality
import JsonSchema.Value.Text
import Mathlib.Data.Finset.Basic
import Mathlib.Data.List.Nodup

/-!
The text of a value is the text of a tree. A graph is unfolded from a node on (`Graph.Unfolds`); a place that leads back
to an array or object around it is cut off, and there the text has its mark. A node has one tree (`Unfolds.unique`), and
however much fuel is left the text is that of the tree (`Value.exists_unfolding`). The same is written when the nodes
around are one set that changes on the way (`Graph.write`): a node joins the set before its children and leaves it after
them, so the set is afterwards what it was (`Value.run_write`).

Something is cut off exactly if a cycle can be reached (`Value.hasCut_iff`). Without a cycle the tree is plain JSON data
(`Graph.Unrolls`), and the text is that of the data, whatever is shared (`Value.toText_eq`).
-/

namespace JsonSchema

/-- A tree that a graph is unfolded to: a scalar, a place where the tree is cut off, or an array or object. -/
inductive Unfolding where
  | leaf (json : Json)
  | cut
  | array (items : List Unfolding)
  | object (members : List (String × Unfolding))

namespace Unfolding

mutual

/-- The compact JSON text of a tree, with a mark where it is cut off. -/
def toText : Unfolding → String
  | .leaf json => json.toText
  | .cut => cycleMark
  | .array items => Json.bracketed "[" "]" (itemTexts items)
  | .object members => Json.bracketed "\x7b" "\x7d" (memberTexts members)

/-- The texts of the elements of an array. -/
def itemTexts : List Unfolding → List String
  | [] => []
  | item :: rest => toText item :: itemTexts rest

/-- The texts of the members of an object. -/
def memberTexts : List (String × Unfolding) → List String
  | [] => []
  | (key, value) :: rest => (Json.quote key ++ ":" ++ toText value) :: memberTexts rest

end

/-- The tree is cut off somewhere. -/
inductive HasCut : Unfolding → Prop
  | cut : HasCut .cut
  | item {items : List Unfolding} {t : Unfolding} : t ∈ items → HasCut t → HasCut (.array items)
  | member {members : List (String × Unfolding)} {m : String × Unfolding} :
      m ∈ members → HasCut m.2 → HasCut (.object members)

theorem itemTexts_eq (items : List Unfolding) : itemTexts items = items.map toText := by
  induction items with
  | nil => rfl
  | cons item rest ih => rw [itemTexts, ih, List.map_cons]

theorem memberTexts_eq (members : List (String × Unfolding)) :
    memberTexts members = members.map fun m => Json.quote m.1 ++ ":" ++ m.2.toText := by
  induction members with
  | nil => rfl
  | cons m rest ih => rw [memberTexts, ih, List.map_cons]

end Unfolding

theorem Json.itemTexts_eq (items : List Json) : itemTexts items = items.map toText := by
  induction items with
  | nil => rfl
  | cons item rest ih => rw [itemTexts, ih, List.map_cons]

theorem Json.memberTexts_eq (members : List (String × Json)) :
    memberTexts members = members.map fun m => quote m.1 ++ ":" ++ m.2.toText := by
  induction members with
  | nil => rfl
  | cons m rest ih => rw [memberTexts, ih, List.map_cons]

namespace Json.Number

/-- An integer of 64 bits with a sign. -/
def ofInteger (i : Int64) : Number :=
  .integer i.toInt ⟨i.le_toInt, Int.lt_trans i.toInt_lt (by decide)⟩

theorem asInteger?_ofInteger (i : Int64) : (ofInteger i).asInteger? = some i := by
  have hlt : i.toInt < Int.pow 2 63 := i.toInt_lt
  rw [ofInteger, asInteger?, if_pos hlt, Int64.ofInt_toInt]

theorem ofInteger_inj {i j : Int64} : ofInteger i = ofInteger j ↔ i = j := by
  refine ⟨fun h => ?_, congrArg ofInteger⟩
  rw [← Option.some_inj, ← asInteger?_ofInteger i, h, asInteger?_ofInteger]

theorem toDouble_of_asInteger? {n : Number} {i : Int64} (h : n.asInteger? = some i) : n.toDouble = Double.ofInt i.toInt := by
  cases n with
  | integer k fits =>
    rw [asInteger?] at h
    split at h
    · next hlt =>
      cases h
      rw [toDouble, Int64.toInt_ofInt_of_le fits.1 hlt]
    · cases h
  | decimal x => cases h

end Json.Number

namespace Node

/-- The data of a scalar. -/
def scalar? : Node → Option Json
  | .null => some .null
  | .boolean b => some (.bool b)
  | .integer i => some (.number (.ofInteger i))
  | .number x => some (.number (.decimal x))
  | .string s => some (.string s)
  | _ => none

/-- An object or reference with these members. -/
def HasMembers (n : Node) (members : List (String × Nat)) : Prop := n = .object members ∨ n = .reference members

variable {n : Node} {json : Json} {l : List (String × Nat)}

theorem scalar?_eq_none_iff : n.scalar? = none ↔ n.isComposite = true := by
  cases n <;> simp [scalar?, isComposite]

theorem children_of_scalar? (h : n.scalar? = some json) : n.children = [] := by
  cases n <;> first | rfl | cases h

/-- Only one scalar has the data. -/
theorem eq_of_scalar? {m : Node} (hn : n.scalar? = some json) (hm : m.scalar? = some json) : n = m := by
  cases n with
  | integer i =>
    cases hn
    cases m with
    | integer j =>
      simp only [scalar?, Option.some.injEq, Json.number.injEq, Json.Number.ofInteger_inj] at hm
      rw [hm]
    | _ => cases hm
  | _ => cases hn <;> cases m <;> cases hm <;> rfl

theorem HasMembers.isComposite (h : n.HasMembers l) : n.isComposite = true := by
  rcases h with rfl | rfl <;> rfl

theorem HasMembers.scalar? (h : n.HasMembers l) : n.scalar? = none := scalar?_eq_none_iff.mpr h.isComposite

theorem HasMembers.children (h : n.HasMembers l) : n.children = l.map (·.2) := by
  rcases h with rfl | rfl <;> rfl

theorem HasMembers.members (h : n.HasMembers l) : n.members = l := by
  rcases h with rfl | rfl <;> rfl

theorem HasMembers.ne_array (h : n.HasMembers l) (items : List Nat) : n ≠ .array items := by
  rcases h with rfl | rfl <;> simp

/-- A node is a scalar, an array, or it has members. -/
theorem scalar_or_array_or_members (n : Node) :
    (∃ json, n.scalar? = some json) ∨ (∃ items, n = .array items) ∨ ∃ members, n.HasMembers members := by
  cases n with
  | array items => exact .inr (.inl ⟨items, rfl⟩)
  | object members => exact .inr (.inr ⟨members, .inl rfl⟩)
  | reference members => exact .inr (.inr ⟨members, .inr rfl⟩)
  | _ => exact .inl ⟨_, rfl⟩

end Node

/-- Lists are the same if what stands in them beside the same entry is. -/
theorem eq_of_mem_zip {α β : Type} {l l' : List α} {m : List β} (hlength : l.length = m.length)
    (hlength' : l'.length = m.length) (h : ∀ {a b c}, (a, c) ∈ l.zip m → (b, c) ∈ l'.zip m → a = b) : l = l' := by
  induction m generalizing l l' with
  | nil => rw [List.length_eq_zero_iff.mp hlength, List.length_eq_zero_iff.mp hlength']
  | cons c m ih =>
    obtain ⟨a, l, rfl⟩ := List.exists_cons_of_length_eq_add_one hlength
    obtain ⟨b, l', rfl⟩ := List.exists_cons_of_length_eq_add_one hlength'
    rw [h (List.mem_cons_self ..) (List.mem_cons_self ..), ih (Nat.succ.inj hlength) (Nat.succ.inj hlength') fun hm hm' =>
      h (List.mem_cons_of_mem _ hm) (List.mem_cons_of_mem _ hm')]

theorem exists_mem_zip_of_mem {α β : Type} {l : List α} {m : List β} (hlength : l.length = m.length) {a : α}
    (h : a ∈ l) : ∃ b, (a, b) ∈ l.zip m := by
  have hzip : (l.zip m).map Prod.fst = l := List.map_fst_zip (Nat.le_of_eq hlength)
  rw [← hzip] at h
  obtain ⟨⟨_, b⟩, hab, rfl⟩ := List.mem_map.mp h
  exact ⟨b, hab⟩

theorem exists_mem_zip_of_mem' {α β : Type} {l : List α} {m : List β} (hlength : l.length = m.length) {b : β}
    (h : b ∈ m) : ∃ a, (a, b) ∈ l.zip m := by
  have hzip : (l.zip m).map Prod.snd = m := List.map_snd_zip (Nat.le_of_eq hlength.symm)
  rw [← hzip] at h
  obtain ⟨⟨a, _⟩, hab, rfl⟩ := List.mem_map.mp h
  exact ⟨a, hab⟩

/-- What relates two lists in two steps relates each of them to a list between them. -/
theorem exists_of_forall₂_comp {α β γ : Type} {R : α → β → Prop} {Q : β → γ → Prop} {l : List α} {k : List γ}
    (h : List.Forall₂ (Relation.Comp R Q) l k) : ∃ m, List.Forall₂ R l m ∧ List.Forall₂ Q m k := by
  induction h with
  | nil => exact ⟨[], .nil, .nil⟩
  | cons hac _ ih =>
    obtain ⟨b, hab, hbc⟩ := hac
    obtain ⟨m, hlm, hmk⟩ := ih
    exact ⟨b :: m, .cons hab hlm, .cons hbc hmk⟩

/-- Lists whose entries have the same image one by one have the same images. -/
theorem map_eq_map_of_forall₂ {α β γ : Type} {f : α → γ} {f' : β → γ} {l : List α} {m : List β}
    (h : List.Forall₂ (fun a b => f a = f' b) l m) : l.map f = m.map f' := by
  induction h with
  | nil => rfl
  | cons hab _ ih => rw [List.map_cons, List.map_cons, hab, ih]

namespace Members

variable {α β : Type} {l l' : List (String × α)} {r : List (String × β)}

theorem length_eq_of_keys (hkeys : l.map (·.1) = r.map (·.1)) : l.length = r.length := by
  simpa using congrArg List.length hkeys

/-- Members with the same keys are related one by one if their values are. -/
theorem forall₂_of_keys {R : α → β → Prop} (hkeys : l.map (·.1) = r.map (·.1))
    (h : ∀ {m n}, (m, n) ∈ l.zip r → R m.2 n.2) : List.Forall₂ (fun m n => m.1 = n.1 ∧ R m.2 n.2) l r := by
  rw [← List.forall₂_eq_eq_eq, List.forall₂_map_left_iff, List.forall₂_map_right_iff] at hkeys
  obtain ⟨hlength, hzip⟩ := List.forall₂_iff_zip.mp hkeys
  exact List.forall₂_iff_zip.mpr ⟨hlength, fun hm => ⟨hzip hm, h hm⟩⟩

theorem eq_of_mem_zip (hkeys : l.map (·.1) = r.map (·.1)) (hkeys' : l'.map (·.1) = r.map (·.1))
    (h : ∀ {m m' n}, (m, n) ∈ l.zip r → (m', n) ∈ l'.zip r → m.2 = m'.2) : l = l' := by
  have hfst : ∀ {l : List (String × α)}, l.map (·.1) = r.map (·.1) → ∀ {m n}, (m, n) ∈ l.zip r → m.1 = n.1 := by
    intro l hkeys m n hm
    have htrue := forall₂_of_keys (R := fun _ _ => True) hkeys fun _ => trivial
    exact ((List.forall₂_iff_zip.mp htrue).2 hm).1
  exact JsonSchema.eq_of_mem_zip (length_eq_of_keys hkeys) (length_eq_of_keys hkeys') fun hm hm' =>
    Prod.ext ((hfst hkeys hm).trans (hfst hkeys' hm').symm) (h hm hm')

end Members

namespace Graph

/-! ### The tree -/

/-- The tree of a node below the given ones: an ancestor is cut off, and otherwise the children of an array or object
are unfolded in their order, with the node among their ancestors. -/
inductive Unfolds (g : Graph) : List Nat → Nat → Unfolding → Prop
  | leaf {ancestors id json} : (g.node id).scalar? = some json → Unfolds g ancestors id (.leaf json)
  | cut {ancestors id} : (g.node id).isComposite = true → id ∈ ancestors → Unfolds g ancestors id .cut
  | array {ancestors id items ids} : g.node id = .array ids → id ∉ ancestors → items.length = ids.length →
      (∀ {item child}, (item, child) ∈ items.zip ids → Unfolds g (id :: ancestors) child item) →
      Unfolds g ancestors id (.array items)
  | object {ancestors id members ids} : (g.node id).HasMembers ids → id ∉ ancestors →
      members.map (·.1) = ids.map (·.1) →
      (∀ {m n}, (m, n) ∈ members.zip ids → Unfolds g (id :: ancestors) n.2 m.2) →
      Unfolds g ancestors id (.object members)

/-- The data of a node: what it is unfolded to if nothing is cut off. -/
inductive Unrolls (g : Graph) : Json → Nat → Prop
  | leaf {id json} : (g.node id).scalar? = some json → Unrolls g json id
  | array {id items ids} : g.node id = .array ids → items.length = ids.length →
      (∀ {item child}, (item, child) ∈ items.zip ids → Unrolls g item child) → Unrolls g (.array items) id
  | object {id members ids} : (g.node id).HasMembers ids → members.map (·.1) = ids.map (·.1) →
      (∀ {m n}, (m, n) ∈ members.zip ids → Unrolls g m.2 n.2) → Unrolls g (.object members) id

variable {g : Graph} {ancestors ids : List Nat} {members : List (String × Nat)} {id fuel : Nat} {json json' : Json}
  {t t' : Unfolding}

theorem Unfolds.array_of {items : List Unfolding} (hn : g.node id = .array ids) (hnew : id ∉ ancestors)
    (h : List.Forall₂ (fun item child => g.Unfolds (id :: ancestors) child item) items ids) :
    g.Unfolds ancestors id (.array items) :=
  .array hn hnew h.length_eq fun hm => (List.forall₂_iff_zip.mp h).2 hm

theorem Unfolds.object_of {trees : List (String × Unfolding)} (hn : (g.node id).HasMembers members)
    (hnew : id ∉ ancestors)
    (h : List.Forall₂ (fun m n => m.1 = n.1 ∧ g.Unfolds (id :: ancestors) n.2 m.2) trees members) :
    g.Unfolds ancestors id (.object trees) :=
  .object hn hnew (map_fst_of_forall₂ (R := fun t child => g.Unfolds (id :: ancestors) child t) h).symm fun hm =>
    ((List.forall₂_iff_zip.mp h).2 hm).2

theorem Unrolls.array_of {items : List Json} (hn : g.node id = .array ids) (h : List.Forall₂ g.Unrolls items ids) :
    g.Unrolls (.array items) id :=
  .array hn h.length_eq fun hm => (List.forall₂_iff_zip.mp h).2 hm

theorem Unrolls.object_of {data : List (String × Json)} (hn : (g.node id).HasMembers members)
    (h : List.Forall₂ (fun m n => m.1 = n.1 ∧ g.Unrolls m.2 n.2) data members) : g.Unrolls (.object data) id :=
  .object hn (map_fst_of_forall₂ h).symm fun hm => ((List.forall₂_iff_zip.mp h).2 hm).2

/-- A node is unfolded to one tree. -/
theorem Unfolds.unique (h : g.Unfolds ancestors id t) (h' : g.Unfolds ancestors id t') : t = t' := by
  induction h generalizing t' with
  | leaf hn =>
    cases h' with
    | leaf hn' => rw [Option.some.inj (hn.symm.trans hn')]
    | cut hcomposite => simp [Node.scalar?_eq_none_iff.mpr hcomposite] at hn
    | array hn' => simp [hn', Node.scalar?] at hn
    | object hn' => simp [hn'.scalar?] at hn
  | cut hcomposite hmem =>
    cases h' with
    | leaf hn' => simp [Node.scalar?_eq_none_iff.mpr hcomposite] at hn'
    | cut => rfl
    | array _ hnew => exact absurd hmem hnew
    | object _ hnew => exact absurd hmem hnew
  | array hn hnew hlength _ ih =>
    cases h' with
    | leaf hn' => simp [hn, Node.scalar?] at hn'
    | cut _ hmem => exact absurd hmem hnew
    | array hn' _ hlength' hitems' =>
      cases hn.symm.trans hn'
      rw [eq_of_mem_zip hlength hlength' fun hm hm' => ih hm (hitems' hm')]
    | object hn' => exact absurd hn (hn'.ne_array _)
  | object hn hnew hkeys _ ih =>
    cases h' with
    | leaf hn' => simp [hn.scalar?] at hn'
    | cut _ hmem => exact absurd hmem hnew
    | array hn' => exact absurd hn' (hn.ne_array _)
    | object hn' _ hkeys' hmembers' =>
      obtain rfl := hn.members.symm.trans hn'.members
      rw [Members.eq_of_mem_zip hkeys hkeys' fun hm hm' => ih hm (hmembers' hm')]

/-- A node has one piece of data. -/
theorem Unrolls.unique (h : g.Unrolls json id) (h' : g.Unrolls json' id) : json = json' := by
  induction h generalizing json' with
  | leaf hn =>
    cases h' with
    | leaf hn' => exact Option.some.inj (hn.symm.trans hn')
    | array hn' => simp [hn', Node.scalar?] at hn
    | object hn' => simp [hn'.scalar?] at hn
  | array hn hlength _ ih =>
    cases h' with
    | leaf hn' => simp [hn, Node.scalar?] at hn'
    | array hn' hlength' hitems' =>
      cases hn.symm.trans hn'
      rw [eq_of_mem_zip hlength hlength' fun hm hm' => ih hm (hitems' hm')]
    | object hn' => exact absurd hn (hn'.ne_array _)
  | object hn hkeys _ ih =>
    cases h' with
    | leaf hn' => simp [hn.scalar?] at hn'
    | array hn' => exact absurd hn' (hn.ne_array _)
    | object hn' hkeys' hmembers' =>
      obtain rfl := hn.members.symm.trans hn'.members
      rw [Members.eq_of_mem_zip hkeys hkeys' fun hm hm' => ih hm (hmembers' hm')]

/-! ### The text -/

theorem text_of_scalar (hn : (g.node id).scalar? = some json) : g.text ancestors id fuel = json.toText := by
  unfold text
  cases hnode : g.node id <;> rw [hnode] at hn <;> cases hn <;> simp [Json.toText, Json.Number.ofInteger]

theorem text_of_mem (hn : (g.node id).isComposite = true) (hmem : id ∈ ancestors) :
    g.text ancestors id fuel = cycleMark := by
  cases hnode : g.node id with
  | array | object | reference =>
    unfold text
    simp [hnode, hmem]
  | _ =>
    rw [hnode] at hn
    cases hn

theorem text_of_array (hn : g.node id = .array ids) (hnew : id ∉ ancestors) : g.text ancestors id (fuel + 1) =
    Json.bracketed "[" "]" (ids.map fun child => g.text (id :: ancestors) child fuel) := by
  rw [text]
  simp [hn, hnew]

theorem text_of_members (hn : (g.node id).HasMembers members) (hnew : id ∉ ancestors) :
    g.text ancestors id (fuel + 1) = Json.bracketed "\x7b" "\x7d"
      (members.map fun m => Json.quote m.1 ++ ":" ++ g.text (id :: ancestors) m.2 fuel) := by
  rw [text]
  rcases hn with hn | hn <;> simp [hn, hnew, Node.members]

/-- Nodes of a graph around a place, each once. -/
structure Ancestors (g : Graph) (ancestors : List Nat) : Prop where
  nodup : ancestors.Nodup
  lt : ∀ a ∈ ancestors, a < g.nodes.size

theorem lt_size_of_isComposite (hn : (g.node id).isComposite = true) : id < g.nodes.size := by
  by_contra hge
  have hnull : g.node id = .null := by
    rw [node, Array.getElem?_eq_none (Nat.not_lt.mp hge)]
    rfl
  rw [hnull] at hn
  cases hn

theorem Ancestors.cons (h : g.Ancestors ancestors) (hn : (g.node id).isComposite = true) (hnew : id ∉ ancestors) :
    g.Ancestors (id :: ancestors) :=
  ⟨List.nodup_cons.mpr ⟨hnew, h.nodup⟩, List.forall_mem_cons.mpr ⟨lt_size_of_isComposite hn, h.lt⟩⟩

theorem Ancestors.length_le (h : g.Ancestors ancestors) : ancestors.length ≤ g.nodes.size := by
  have hsub : ancestors ⊆ List.range g.nodes.size := fun a ha => List.mem_range.mpr (h.lt a ha)
  simpa using (h.nodup.subperm hsub).length_le

/-- With fuel for every node that is not around, there is some left for an array or object that is none of them. -/
theorem Ancestors.exists_fuel (h : g.Ancestors ancestors) (hn : (g.node id).isComposite = true) (hnew : id ∉ ancestors)
    (hfuel : g.nodes.size ≤ fuel + ancestors.length) :
    ∃ rest, fuel = rest + 1 ∧ g.nodes.size ≤ rest + (id :: ancestors).length := by
  have hlength := (h.cons hn hnew).length_le
  rw [List.length_cons] at hlength ⊢
  exact ⟨fuel - 1, by omega, by omega⟩

/-- With fuel for every node that is not around, the text is that of the tree: one more node is around wherever the fuel
is one less. -/
theorem Ancestors.exists_unfolding (h : g.Ancestors ancestors) (id : Nat)
    (hfuel : g.nodes.size ≤ fuel + ancestors.length) :
    ∃ t, g.Unfolds ancestors id t ∧ g.text ancestors id fuel = t.toText := by
  induction fuel using Nat.strong_induction_on generalizing ancestors id with
  | _ fuel ih =>
    by_cases hcut : (g.node id).isComposite = true ∧ id ∈ ancestors
    · exact ⟨.cut, .cut hcut.1 hcut.2, text_of_mem hcut.1 hcut.2⟩
    rw [not_and] at hcut
    rcases (g.node id).scalar_or_array_or_members with ⟨json, hn⟩ | ⟨ids, hn⟩ | ⟨members, hn⟩
    · exact ⟨.leaf json, .leaf hn, text_of_scalar hn⟩
    · have hcomposite : (g.node id).isComposite = true := by rw [hn]; rfl
      obtain ⟨rest, rfl, hrest⟩ := h.exists_fuel hcomposite (hcut hcomposite) hfuel
      choose tree hunfolds htext using fun child =>
        ih rest (Nat.lt_succ_self rest) (h.cons hcomposite (hcut hcomposite)) child hrest
      refine ⟨.array (ids.map tree), .array_of hn (hcut hcomposite) ?_, ?_⟩
      · rw [List.forall₂_map_left_iff]
        exact List.forall₂_same.mpr fun child _ => hunfolds child
      · rw [text_of_array hn (hcut hcomposite), Unfolding.toText, Unfolding.itemTexts_eq, List.map_map]
        exact congrArg _ (List.map_congr_left fun child _ => htext child)
    · obtain ⟨rest, rfl, hrest⟩ := h.exists_fuel hn.isComposite (hcut hn.isComposite) hfuel
      choose tree hunfolds htext using fun child =>
        ih rest (Nat.lt_succ_self rest) (h.cons hn.isComposite (hcut hn.isComposite)) child hrest
      refine ⟨.object (members.map fun m => (m.1, tree m.2)), .object_of hn (hcut hn.isComposite) ?_, ?_⟩
      · rw [List.forall₂_map_left_iff]
        exact List.forall₂_same.mpr fun m _ => ⟨rfl, hunfolds m.2⟩
      · rw [text_of_members hn (hcut hn.isComposite), Unfolding.toText, Unfolding.memberTexts_eq, List.map_map]
        exact congrArg _ (List.map_congr_left fun m _ => congrArg _ (htext m.2))

/-! ### One set of ancestors -/

/-- The text of a node, written with one set of the nodes around that changes on the way: a node joins the set before
its children are written and leaves it after them. -/
def write (g : Graph) : Nat → Nat → StateT (Finset Nat) Option String
  | 0, _ => failure
  | fuel + 1, id =>
    match (g.node id).scalar? with
    | some json => return json.toText
    | none => do
      if id ∈ (← get) then return cycleMark
      modify (insert id)
      let text ← match g.node id with
        | .array items => do
          let texts ← items.mapM (g.write fuel)
          pure (Json.bracketed "[" "]" texts)
        | node => do
          let texts ← node.members.mapM fun m => (Json.quote m.1 ++ ":" ++ ·) <$> g.write fuel m.2
          pure (Json.bracketed "\x7b" "\x7d" texts)
      modify (·.erase id)
      return text

/-- What is written for each entry of a list, with the set as it was after each. -/
theorem run_mapM {α : Type} {f : α → StateT (Finset Nat) Option String} {text : α → String} {s : Finset Nat}
    {l : List α} (h : ∀ a ∈ l, (f a).run s = some (text a, s)) : (l.mapM f).run s = some (l.map text, s) := by
  induction l with
  | nil => rfl
  | cons a l ih =>
    rw [List.forall_mem_cons] at h
    rw [List.mapM_cons, StateT.run_bind, h.1]
    simp [ih h.2]

/-- The set is given back as it was, and the text is the one below the nodes of the set. -/
theorem Ancestors.run_write (h : g.Ancestors ancestors) (id : Nat) (hfuel : g.nodes.size ≤ fuel + ancestors.length) :
    (g.write (fuel + 1) id).run ancestors.toFinset = some (g.text ancestors id fuel, ancestors.toFinset) := by
  induction fuel using Nat.strong_induction_on generalizing ancestors id with
  | _ fuel ih =>
    rcases hscalar : (g.node id).scalar? with _ | json
    · have hcomposite := Node.scalar?_eq_none_iff.mp hscalar
      by_cases hmem : id ∈ ancestors
      · rw [write, hscalar, text_of_mem hcomposite hmem]
        simp [hmem]
      obtain ⟨rest, rfl, hrest⟩ := h.exists_fuel hcomposite hmem hfuel
      have hchild := fun child => ih rest (Nat.lt_succ_self rest) (h.cons hcomposite hmem) child hrest
      rw [List.toFinset_cons] at hchild
      have hrestore : (insert id ancestors.toFinset).erase id = ancestors.toFinset :=
        Finset.erase_insert (by simpa using hmem)
      rcases (g.node id).scalar_or_array_or_members with ⟨json, hn⟩ | ⟨ids, hn⟩ | ⟨members, hn⟩
      · cases hscalar.symm.trans hn
      · have hitems := run_mapM (l := ids) fun child _ => hchild child
        rw [text_of_array hn hmem, write, hscalar]
        simp [hmem, hn, hitems, hrestore]
      · have hmembers : (members.mapM fun m => (Json.quote m.1 ++ ":" ++ ·) <$> g.write (rest + 1) m.2).run
            (insert id ancestors.toFinset) =
              some (members.map fun m => Json.quote m.1 ++ ":" ++ g.text (id :: ancestors) m.2 rest,
                insert id ancestors.toFinset) := run_mapM fun m _ => by simp [hchild]
        rw [text_of_members hn hmem, write, hscalar]
        rcases hn with hn | hn <;> simp [hmem, hn, Node.members, hmembers, hrestore]
    · rw [write, hscalar, text_of_scalar hscalar]
      simp

/-! ### Cycles -/

/-- The second node is a child of the first. -/
def Child (g : Graph) (a b : Nat) : Prop := b ∈ (g.node a).children

theorem child_of_array (hn : g.node id = .array ids) {child : Nat} (h : child ∈ ids) : g.Child id child := by
  rw [Child, hn]
  exact h

theorem child_of_members (hn : (g.node id).HasMembers members) {m : String × Nat} (h : m ∈ members) :
    g.Child id m.2 := by
  rw [Child, hn.children]
  exact List.mem_map_of_mem h

theorem reaches_iff {root : Nat} : g.Reaches root id ↔ Relation.ReflTransGen g.Child root id := by
  constructor
  · intro h
    induction h with
    | root => exact .refl
    | child _ hc ih => exact ih.tail hc
  · intro h
    induction h with
    | refl => exact .root
    | tail _ hc ih => exact .child ih hc

/-- An ancestor that is met again lies on a cycle. -/
theorem Unfolds.exists_cycle (h : g.Unfolds ancestors id t) (ht : t.HasCut)
    (hancestors : ∀ a ∈ ancestors, Relation.TransGen g.Child a id) :
    ∃ c, Relation.ReflTransGen g.Child id c ∧ Relation.TransGen g.Child c c := by
  -- the child of the node has the node and its ancestors around it
  have hbelow : ∀ {id child : Nat} {ancestors : List Nat}, (∀ a ∈ ancestors, Relation.TransGen g.Child a id) →
      g.Child id child → ∀ a ∈ id :: ancestors, Relation.TransGen g.Child a child := fun hancestors hc =>
    List.forall_mem_cons.mpr ⟨.single hc, fun a ha => (hancestors a ha).tail hc⟩
  induction h with
  | leaf => cases ht
  | cut _ hmem => exact ⟨_, .refl, hancestors _ hmem⟩
  | array hn _ hlength _ ih =>
    cases ht with
    | item hmem ht =>
      obtain ⟨child, hm⟩ := exists_mem_zip_of_mem hlength hmem
      have hc := child_of_array hn (List.of_mem_zip hm).2
      obtain ⟨c, hreach, hcycle⟩ := ih hm ht (hbelow hancestors hc)
      exact ⟨c, hreach.head hc, hcycle⟩
  | object hn _ hkeys _ ih =>
    cases ht with
    | member hmem ht =>
      obtain ⟨n, hm⟩ := exists_mem_zip_of_mem (Members.length_eq_of_keys hkeys) hmem
      have hc := child_of_members hn (List.of_mem_zip hm).2
      obtain ⟨c, hreach, hcycle⟩ := ih hm ht (hbelow hancestors hc)
      exact ⟨c, hreach.head hc, hcycle⟩

/-- A tree that is not cut off is the data of its node. -/
theorem Unfolds.exists_unrolls (h : g.Unfolds ancestors id t) (ht : ¬t.HasCut) :
    ∃ json, g.Unrolls json id ∧ t.toText = json.toText := by
  induction h with
  | leaf hn => exact ⟨_, .leaf hn, rfl⟩
  | cut => exact absurd .cut ht
  | @array ancestors id items ids hn _ hlength _ ih =>
    have hitems : List.Forall₂ (Relation.Comp (fun item (json : Json) => item.toText = json.toText) g.Unrolls)
        items ids :=
      List.forall₂_iff_zip.mpr ⟨hlength, fun hm => by
        obtain ⟨json, hunrolls, htext⟩ := ih hm fun hcut => ht (.item (List.of_mem_zip hm).1 hcut)
        exact ⟨json, htext, hunrolls⟩⟩
    obtain ⟨data, htexts, hdata⟩ := exists_of_forall₂_comp hitems
    refine ⟨.array data, .array_of hn hdata, ?_⟩
    rw [Unfolding.toText, Json.toText, Unfolding.itemTexts_eq, Json.itemTexts_eq, map_eq_map_of_forall₂ htexts]
  | @object ancestors id trees members hn _ hkeys _ ih =>
    have hmembers : List.Forall₂ (Relation.Comp
        (fun m (m' : String × Json) => m.1 = m'.1 ∧ m.2.toText = m'.2.toText)
        (fun m n => m.1 = n.1 ∧ g.Unrolls m.2 n.2)) trees members := by
      have hsame := Members.forall₂_of_keys (R := fun t id => ∃ json, g.Unrolls json id ∧ t.toText = json.toText) hkeys
        fun {m n} hm => ih hm fun hcut => ht (.member (List.of_mem_zip hm).1 hcut)
      exact hsame.imp fun m n ⟨hkey, json, hunrolls, htext⟩ => ⟨(m.1, json), ⟨rfl, htext⟩, hkey, hunrolls⟩
    obtain ⟨data, htexts, hdata⟩ := exists_of_forall₂_comp hmembers
    refine ⟨.object data, .object_of hn hdata, ?_⟩
    have htexts : List.Forall₂ (fun m m' => Json.quote m.1 ++ ":" ++ m.2.toText =
        Json.quote m'.1 ++ ":" ++ m'.2.toText) trees data := htexts.imp fun m m' hm => by rw [hm.1, hm.2]
    rw [Unfolding.toText, Json.toText, Unfolding.memberTexts_eq, Json.memberTexts_eq, map_eq_map_of_forall₂ htexts]

/-- A cycle that is reached from a node is reached from one of its children. -/
theorem exists_child_of_cycle {c : Nat} (hreach : Relation.ReflTransGen g.Child id c)
    (hcycle : Relation.TransGen g.Child c c) : ∃ child, g.Child id child ∧ Relation.ReflTransGen g.Child child c := by
  rcases hreach.cases_head with rfl | hchild
  · exact Relation.TransGen.head'_iff.mp hcycle
  · exact hchild

/-- From a node that has data, no cycle is reached. -/
theorem Unrolls.not_cycle (h : g.Unrolls json id) {c : Nat} (hreach : Relation.ReflTransGen g.Child id c) :
    ¬Relation.TransGen g.Child c c := by
  intro hcycle
  induction h with
  | leaf hn =>
    obtain ⟨child, hc, -⟩ := exists_child_of_cycle hreach hcycle
    rw [Child, Node.children_of_scalar? hn] at hc
    cases hc
  | array hn hlength _ ih =>
    obtain ⟨child, hc, hback⟩ := exists_child_of_cycle hreach hcycle
    rw [Child, hn] at hc
    obtain ⟨item, hm⟩ := exists_mem_zip_of_mem' hlength hc
    exact ih hm hback
  | object hn hkeys _ ih =>
    obtain ⟨child, hc, hback⟩ := exists_child_of_cycle hreach hcycle
    rw [Child, hn.children] at hc
    obtain ⟨n, hmem, rfl⟩ := List.mem_map.mp hc
    obtain ⟨m, hm⟩ := exists_mem_zip_of_mem' (Members.length_eq_of_keys hkeys) hmem
    exact ih hm hback

end Graph

namespace Value

variable {v : Value} {json : Json}

/-- A node that can be reached leads back to itself. -/
def IsCyclic (v : Value) : Prop := ∃ id, v.graph.Reaches v.id id ∧ Relation.TransGen v.graph.Child id id

theorem ancestors_nil (v : Value) : v.graph.Ancestors [] := ⟨List.nodup_nil, fun _ ha => absurd ha List.not_mem_nil⟩

/-- The text of a value is the text of its tree. -/
theorem exists_unfolding (v : Value) : ∃ t, v.graph.Unfolds [] v.id t ∧ v.toText = t.toText :=
  v.ancestors_nil.exists_unfolding v.id (Nat.le_refl _)

/-- The data of a value, if it has any, is what its tree is. -/
theorem toText_eq (h : v.graph.Unrolls json v.id) : v.toText = json.toText := by
  obtain ⟨t, hunfolds, htext⟩ := v.exists_unfolding
  have hplain : ¬t.HasCut := fun ht => by
    obtain ⟨c, hreach, hcycle⟩ := hunfolds.exists_cycle ht fun a ha => absurd ha List.not_mem_nil
    exact h.not_cycle hreach hcycle
  obtain ⟨json', hunrolls, hsame⟩ := hunfolds.exists_unrolls hplain
  rw [htext, hsame, hunrolls.unique h]

/-- The tree is cut off somewhere exactly if a cycle can be reached. -/
theorem hasCut_iff {t : Unfolding} (h : v.graph.Unfolds [] v.id t) : t.HasCut ↔ v.IsCyclic := by
  constructor
  · intro ht
    obtain ⟨c, hreach, hcycle⟩ := h.exists_cycle ht fun a ha => absurd ha List.not_mem_nil
    exact ⟨c, Graph.reaches_iff.mpr hreach, hcycle⟩
  · rintro ⟨c, hreach, hcycle⟩
    by_contra ht
    obtain ⟨json, hunrolls, -⟩ := h.exists_unrolls ht
    exact hunrolls.not_cycle (Graph.reaches_iff.mp hreach) hcycle

/-- A value has data exactly if no cycle can be reached. -/
theorem exists_unrolls_iff : (∃ json, v.graph.Unrolls json v.id) ↔ ¬v.IsCyclic := by
  obtain ⟨t, hunfolds, -⟩ := v.exists_unfolding
  rw [← hasCut_iff hunfolds]
  constructor
  · rintro ⟨json, hunrolls⟩ ht
    obtain ⟨c, hreach, hcycle⟩ := (hasCut_iff hunfolds).mp ht
    exact hunrolls.not_cycle (Graph.reaches_iff.mp hreach) hcycle
  · intro ht
    obtain ⟨json, hunrolls, -⟩ := hunfolds.exists_unrolls ht
    exact ⟨json, hunrolls⟩

/-- Written with one set of ancestors, empty at first, the text of a value is the same, and the set is empty again. -/
theorem run_write (v : Value) {fuel : Nat} (hfuel : v.graph.nodes.size < fuel) :
    (v.graph.write fuel v.id).run ∅ = some (v.toText, ∅) := by
  obtain ⟨rest, rfl⟩ : ∃ rest, fuel = rest + 1 := ⟨fuel - 1, by omega⟩
  have hrest : v.graph.nodes.size ≤ rest := Nat.le_of_lt_succ hfuel
  obtain ⟨t, hunfolds, htext⟩ := v.exists_unfolding
  obtain ⟨t', hunfolds', htext'⟩ := v.ancestors_nil.exists_unfolding v.id hrest
  have hrun := v.ancestors_nil.run_write v.id hrest
  rw [htext', hunfolds'.unique hunfolds, ← htext] at hrun
  exact hrun

end Value

end JsonSchema
