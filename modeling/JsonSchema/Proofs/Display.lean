import JsonSchema.Proofs.Equality.Unshared
import JsonSchema.Proofs.Reading
import JsonSchema.Proofs.Rounding

/-!
The text of a value, read back. What the text of the data is read as agrees with the data up to the order of members
and the kind of numbers, so the value of it and the value that was written agree node by node (`Graph.Rereads.agree`);
this is equality if nothing stands in two places (`Value.exists_reread`), which is to say that there are no cycles and
nothing is shared (`Value.unshared_iff`). A reader that has a limit for the nesting reads the same or nothing. The main
result has this beside what the text is for every graph (`Value.toText_exact`).
-/

namespace JsonSchema

/-! ### Members in the order of their keys -/

namespace Members

variable {α : Type} {key : String} {value : α} {l acc : List (String × α)}

theorem insertSorted_perm (h : key ∉ l.map (·.1)) : (insertSorted key value l).Perm ((key, value) :: l) := by
  induction l with
  | nil => exact .refl _
  | cons m l ih =>
    obtain ⟨k, v⟩ := m
    rw [List.map_cons, List.mem_cons, not_or] at h
    rw [insertSorted, if_neg (Ne.symm h.1)]
    split
    · exact .refl _
    · exact ((ih h.2).cons _).trans (.swap _ _ _)

/-- Under distinct keys, members are put in order, and none is lost. -/
theorem sorted_perm (h : (l.map (·.1)).Nodup) : (sorted l).Perm l := by
  have hfold : ∀ acc : List (String × α), ((acc ++ l).map (·.1)).Nodup →
      (l.foldl (fun acc m => insertSorted m.1 m.2 acc) acc).Perm (acc ++ l) := by
    clear h
    induction l with
    | nil => exact fun acc _ => by simp
    | cons m l ih =>
      intro acc hacc
      have hnew : m.1 ∉ acc.map (·.1) := fun hmem => by
        rw [List.map_append, List.nodup_append] at hacc
        exact hacc.2.2 _ hmem _ (by simp) rfl
      have hperm : (insertSorted m.1 m.2 acc ++ l).Perm (acc ++ m :: l) :=
        ((insertSorted_perm hnew).append_right l).trans List.perm_middle.symm
      exact (ih _ ((hperm.map _).nodup_iff.mpr hacc)).trans hperm
  exact hfold [] h

end Members

/-! ### What the text is read as -/

theorem exists_forall₂ {α β : Type} {R : α → β → Prop} {l : List α} (h : ∀ a ∈ l, ∃ b, R a b) :
    ∃ m, List.Forall₂ R l m := by
  induction l with
  | nil => exact ⟨[], .nil⟩
  | cons a l ih =>
    rw [List.forall_mem_cons] at h
    obtain ⟨b, hab⟩ := h.1
    obtain ⟨m, hm⟩ := ih h.2
    exact ⟨b :: m, .cons hab hm⟩

namespace Graph

variable {g g' : Graph} {a b id : Nat} {json json' : Json} {l r : List (String × Nat)} {R : Nat → Nat → Prop}

/-- A scalar is the data of its node. -/
theorem Unrolls.node_eq (h : g.Unrolls json id) {n : Node} (hn : n.scalar? = some json) : g.node id = n := by
  cases h with
  | leaf hm => exact Node.eq_of_scalar? hm hn
  | array => cases n <;> cases hn
  | object => cases n <;> cases hn

theorem Unrolls.node_number {n : Json.Number} (h : g.Unrolls (.number n) id) :
    (∃ i, n = .ofInteger i ∧ g.node id = .integer i) ∨ ∃ x, n = .decimal x ∧ g.node id = .number x := by
  cases h with
  | leaf hm =>
    cases hnode : g.node id <;> rw [hnode] at hm <;> cases hm
    · exact .inl ⟨_, rfl, rfl⟩
    · exact .inr ⟨_, rfl, rfl⟩

theorem Unrolls.node_eq_string_iff (h : g.Unrolls json id) {s : String} : g.node id = .string s ↔ json = .string s := by
  constructor
  · intro hn
    have hleaf : g.Unrolls (.string s) id := .leaf (by rw [hn]; rfl)
    exact h.unique hleaf
  · rintro rfl
    exact h.node_eq rfl

/-- In proper graphs, nodes with members agree if their members do and strings are related to the same strings: one of
them is a reference exactly if the other one is. -/
theorem Proper.agree (hg : g.Proper) (hg' : g'.Proper) (hn : (g.node a).HasMembers l) (hm : (g'.node b).HasMembers r)
    (h : Members.Agree R l r) (hstring : ∀ {c d}, R c d → ∀ s, g.node c = .string s ↔ g'.node d = .string s) :
    (g.node a).Agree R (g'.node b) := by
  have hkeys : (l.map (·.1)).Nodup := hn.members ▸ hg.nodup_keys a
  rcases hn with hn | hn <;> rcases hm with hm | hm <;> rw [hn, hm]
  · exact .object h
  · obtain ⟨d, s, hd, hs⟩ := hg'.reference hm
    obtain ⟨c, hc, hR⟩ := (h.symm hkeys).2 _ (mem_of_lookup hd)
    exact absurd ((hstring hR s).mpr hs) (hg.object hn hc)
  · obtain ⟨c, s, hc, hs⟩ := hg.reference hn
    obtain ⟨d, hd, hR⟩ := h.2 _ (mem_of_lookup hc)
    exact absurd ((hstring hR s).mp hs) (hg'.object hm hd)
  · exact .reference h

/-- The first node shows what the text of the data of the second is read as. -/
def Rereads (g g' : Graph) (a b : Nat) : Prop :=
  ∃ json json', json.ReadsAs json' ∧ g.Shows json' a ∧ g'.Unrolls json b

/-- Elements one by one. -/
theorem forall₂_rereads {items items' : List Json} {ids ids' : List Nat}
    (hreads : List.Forall₂ Json.ReadsAs items items') (hshows : List.Forall₂ g.Shows items' ids')
    (hunrolls : List.Forall₂ g'.Unrolls items ids) : List.Forall₂ (g.Rereads g') ids' ids :=
  (forall₂_comp hshows.flip (forall₂_comp hreads.flip hunrolls)).imp
    fun _ _ ⟨json', hshows, json, hreads, hunrolls⟩ => ⟨json, json', hreads, hshows, hunrolls⟩

/-- Members by their keys, in whatever order they are read. -/
theorem members_rereads {members members' : List (String × Json)} (hkeys : (r.map (·.1)).Nodup)
    (hreads : List.Forall₂ (fun m n => m.1 = n.1 ∧ m.2.ReadsAs n.2) members members')
    (hshows : List.Forall₂ (fun m n => m.1 = n.1 ∧ g.Shows m.2 n.2) (Members.sorted members') l)
    (hunrolls : List.Forall₂ (fun m n => m.1 = n.1 ∧ g'.Unrolls m.2 n.2) members r) :
    Members.Agree (g.Rereads g') l r := by
  have hkeys' : (members'.map (·.1)).Nodup := by
    rw [map_fst_of_forall₂ hreads, ← map_fst_of_forall₂ hunrolls]
    exact hkeys
  have hperm := Members.sorted_perm hkeys'
  refine ⟨?_, fun m hm => ?_⟩
  · rw [← hshows.length_eq, hperm.length_eq, ← hreads.length_eq, hunrolls.length_eq]
  · obtain ⟨⟨key, json'⟩, hmem', hkey, hshows⟩ := exists_left_of_forall₂ hshows hm
    obtain ⟨⟨key', json⟩, hmem, hkey', hreads⟩ := exists_left_of_forall₂ hreads (hperm.mem_iff.mp hmem')
    obtain ⟨⟨key'', child⟩, hchild, hkey'', hunrolls⟩ := exists_right_of_forall₂ hunrolls hmem
    have hm : m.1 = key'' := hkey.symm.trans (hkey'.symm.trans hkey'')
    exact ⟨child, hm ▸ lookup_of_mem hkeys hchild, json, json', hreads, hshows, hunrolls⟩

theorem Rereads.node_eq_string_iff (h : g.Rereads g' a b) {s : String} :
    g.node a = .string s ↔ g'.node b = .string s := by
  obtain ⟨json, json', hreads, hshows, hunrolls⟩ := h
  rw [hshows.node_eq_string_iff, hreads.eq_string_iff, hunrolls.node_eq_string_iff]

/-- The nodes have the same children, or they are equal scalars. -/
theorem Rereads.agree (hg : g.Proper) (hg' : g'.Proper) (h : g.Rereads g' a b) :
    (g.node a).Agree (g.Rereads g') (g'.node b) ∨ (g.node a).scalarEq (g'.node b) = true := by
  obtain ⟨json, json', hreads, hshows, hunrolls⟩ := h
  cases hreads with
  | null =>
    cases hshows with
    | null hn =>
      rw [hn, hunrolls.node_eq (n := .null) rfl]
      exact .inr rfl
  | bool =>
    cases hshows with
    | bool hn =>
      rw [hn, hunrolls.node_eq (n := .boolean _) rfl]
      exact .inr (beq_self_eq_true _)
  | integer =>
    obtain ⟨i, heq, hm⟩ | ⟨x, heq, -⟩ := hunrolls.node_number
    · have hi := Json.Number.asInteger?_ofInteger i
      rw [← heq] at hi
      cases hshows with
      | integer hinteger hn =>
        cases hi.symm.trans hinteger
        rw [hn, hm]
        exact .inr (beq_self_eq_true _)
      | number hnone => cases hi.symm.trans hnone
    · cases heq
  | @number x _ hx _ hdouble =>
    have heq : x.eq x = true := Double.eq_refl (by rintro rfl; cases hx)
    rw [hunrolls.node_eq (n := .number x) rfl]
    cases hshows with
    | integer hinteger hn =>
      cases hdouble
      rw [Json.Number.toDouble_of_asInteger? hinteger] at heq ⊢
      rw [hn]
      exact .inr heq
    | number _ hn =>
      cases hdouble
      rw [hn]
      exact .inr heq
    | _ => cases hdouble
  | string =>
    cases hshows with
    | string hn =>
      rw [hn, hunrolls.node_eq (n := .string _) rfl]
      exact .inr (beq_self_eq_true _)
  | array hlength hitems =>
    cases hshows with
    | array hn hlength' hshows =>
      cases hunrolls with
      | leaf hm => cases hnode : g'.node b <;> rw [hnode] at hm <;> cases hm
      | array hm hlength'' hunrolls =>
        rw [hn, hm]
        exact .inl (.array (forall₂_rereads (List.forall₂_iff_zip.mpr ⟨hlength, hitems⟩)
          (List.forall₂_iff_zip.mpr ⟨hlength', hshows⟩) (List.forall₂_iff_zip.mpr ⟨hlength'', hunrolls⟩)))
  | object hkeys hmembers =>
    cases hshows with
    | object hn hkeys' hshows =>
      cases hunrolls with
      | leaf hm => cases hnode : g'.node b <;> rw [hnode] at hm <;> cases hm
      | object hm hkeys'' hunrolls =>
        have hids := hm.members ▸ hg'.nodup_keys b
        have hreads := Members.forall₂_of_keys (R := Json.ReadsAs) hkeys hmembers
        have hsorted := Members.sorted_perm (hkeys ▸ hkeys'' ▸ hids)
        have hnodup := (hsorted.map (·.1)).nodup_iff.mpr (hkeys ▸ hkeys'' ▸ hids)
        rw [Members.ofList_of_nodup hnodup] at hkeys' hshows
        refine .inl (hg.agree hg' (hn.imp And.left And.left) hm (members_rereads hids hreads
          (Members.forall₂_of_keys hkeys' hshows) (Members.forall₂_of_keys hkeys'' hunrolls)) fun hR s => ?_)
        exact hR.node_eq_string_iff

/-- The data of a node can be read back if every number can be that is reached from there. -/
theorem Unrolls.exists_readsAs (h : g.Unrolls json id)
    (hnumber : ∀ {c x}, Relation.ReflTransGen g.Child id c → g.node c = .number x → x.isFinite = true ∧ x.ReadsBack) :
    ∃ json', json.ReadsAs json' := by
  induction h with
  | @leaf id json hn =>
    cases hnode : g.node id <;> rw [hnode] at hn <;> cases hn
    case number.refl x =>
      obtain ⟨hx, hback⟩ := hnumber .refl hnode
      obtain ⟨json', hjson, hdouble⟩ := Option.bind_eq_some_iff.mp hback
      exact ⟨json', .number hx hjson hdouble⟩
    all_goals exact ⟨_, by constructor⟩
  | @array id items ids hn hlength _ ih =>
    have hitems : ∀ item ∈ items, ∃ item', item.ReadsAs item' := fun item hmem => by
      obtain ⟨child, hm⟩ := exists_mem_zip_of_mem hlength hmem
      exact ih hm fun hreach => hnumber (hreach.head (child_of_array hn (List.of_mem_zip hm).2))
    obtain ⟨items', hitems⟩ := exists_forall₂ hitems
    exact ⟨.array items', .array hitems.length_eq fun hm => (List.forall₂_iff_zip.mp hitems).2 hm⟩
  | @object id members ids hn hkeys _ ih =>
    have hmembers : ∀ m ∈ members, ∃ m' : String × Json, m.1 = m'.1 ∧ m.2.ReadsAs m'.2 := fun m hmem => by
      obtain ⟨n, hm⟩ := exists_mem_zip_of_mem (Members.length_eq_of_keys hkeys) hmem
      obtain ⟨json', hreads⟩ := ih hm fun hreach => hnumber (hreach.head (child_of_members hn (List.of_mem_zip hm).2))
      exact ⟨(m.1, json'), rfl, hreads⟩
    obtain ⟨members', hmembers⟩ := exists_forall₂ hmembers
    exact ⟨.object (Members.sorted members'), .object (map_fst_of_forall₂ hmembers).symm fun hm =>
      ((List.forall₂_iff_zip.mp hmembers).2 hm).2⟩

end Graph

/-! ### Values -/

namespace Value

variable {v : Value}

/-- An array or object that can be reached stands in two places. -/
def Shares (v : Value) : Prop :=
  ∃ a b i j c : Nat, v.graph.Reaches v.id a ∧ v.graph.Reaches v.id b ∧ (v.graph.node a).children[i]? = some c ∧
    (v.graph.node b).children[j]? = some c ∧ (v.graph.node c).isComposite = true ∧ ¬(a = b ∧ i = j)

/-- Where each array or object has one place only, no cycle can be reached: the way back would enter it again. -/
theorem Unshared.not_isCyclic (h : v.Unshared) : ¬v.IsCyclic := by
  rintro ⟨c, hreach, hcycle⟩
  induction hreach with
  | root =>
    obtain ⟨b, hb, hc⟩ := Relation.TransGen.tail'_iff.mp hcycle
    obtain ⟨d, hd, -⟩ := Relation.TransGen.head'_iff.mp hcycle
    exact h.root (Graph.reaches_iff.mpr hb) (Node.isComposite_of_mem_children hd) hc
  | @child a c ha hc ih =>
    obtain ⟨b, hb, hback⟩ := Relation.TransGen.tail'_iff.mp hcycle
    obtain ⟨d, hd, -⟩ := Relation.TransGen.head'_iff.mp hcycle
    obtain ⟨i, hi⟩ := List.mem_iff_getElem?.mp hc
    obtain ⟨j, hj⟩ := List.mem_iff_getElem?.mp hback
    have hreach : v.graph.Reaches v.id b :=
      Graph.reaches_iff.mpr ((Graph.reaches_iff.mp (.child ha hc)).trans hb)
    -- the last node of the cycle is the parent, so the cycle goes through it as well
    obtain ⟨rfl, -⟩ := h.child ha hreach hi hj (Node.isComposite_of_mem_children hd)
    exact ih (.head' hc hb)

/-- Each array or object has one place only if there are no cycles and nothing is shared. -/
theorem unshared_iff : v.Unshared ↔ ¬v.IsCyclic ∧ ¬v.Shares := by
  constructor
  · intro h
    refine ⟨h.not_isCyclic, ?_⟩
    rintro ⟨a, b, i, j, c, ha, hb, hi, hj, hc, hne⟩
    exact hne (h.child ha hb hi hj hc)
  · rintro ⟨hcyclic, hshares⟩
    refine ⟨fun {a} ha _ hmem => ?_, fun {a b i j c} ha hb hi hj hc => ?_⟩
    · exact hcyclic ⟨v.id, .root, .tail' (Graph.reaches_iff.mp ha) hmem⟩
    · by_contra hne
      exact hshares ⟨a, b, i, j, c, ha, hb, hi, hj, hc, hne⟩

/-- What the text of a value without cycles and sharing is read as is equal to it, if it is not nested too deep for the
reader. -/
theorem exists_reread (hv : v.graph.Proper) (hunshared : v.Unshared)
    (hnumber : ∀ x, v.Holds (.number x) → x.isFinite = true ∧ x.ReadsBack) {json : Json}
    (hunrolls : v.graph.Unrolls json v.id) :
    ∃ json', (∀ tag, (ofJson tag json').eq v = true) ∧
      ∀ levels, Json.ofText? v.toText levels = if Json.Allows levels json.nesting then some json' else none := by
  obtain ⟨json', hreads⟩ := hunrolls.exists_readsAs fun {c x} hreach hn =>
    hnumber x ⟨c, Graph.reaches_iff.mpr hreach, hn⟩
  refine ⟨json', fun tag => ?_, fun levels => ?_⟩
  · have hproper := (Made.json tag json').proper
    have hroot : (ofJson tag json').graph.Rereads v.graph (ofJson tag json').id v.id :=
      ⟨json, json', hreads, shows_ofJson tag json', hunrolls⟩
    exact eq_of_unshared (unshared_ofJson tag json') hunshared hproper.toWellFormed hroot fun hR => hR.agree hproper hv
  · rw [toText_eq hunrolls]
    exact hreads.reads.ofText?_toText levels

/-- **The text of a value is the JSON of its tree.** The graph is unfolded to one tree, in which each place is cut off
that leads back to an array or object around it, and the text is that of the tree; something is cut off exactly if a
cycle can be reached. The text is also what is written with one set of the nodes around, which is given back as it
was. Values without cycles are plain data, and those with the same data have the same text, whatever they share. If
nothing is shared and the texts of the numbers stand for them, the text is read as a value that is equal, by every
reader that allows as many arrays and objects around each other as there are in the data; with a lower limit it is
refused. -/
theorem toText_exact (v : Value) :
    (∃ t, (∀ t', v.graph.Unfolds [] v.id t' ↔ t' = t) ∧ v.toText = t.toText ∧ (t.HasCut ↔ v.IsCyclic)) ∧
    (∀ fuel, v.graph.nodes.size < fuel → (v.graph.write fuel v.id).run ∅ = some (v.toText, ∅)) ∧
    ((∃ json, v.graph.Unrolls json v.id) ↔ ¬v.IsCyclic) ∧
    (∀ (w : Value) (json : Json), v.graph.Unrolls json v.id → w.graph.Unrolls json w.id →
      v.toText = json.toText ∧ w.toText = v.toText) ∧
    (v.Made → ¬v.IsCyclic → ¬v.Shares → (∀ x, v.Holds (.number x) → x.isFinite = true) →
      (∀ x, v.Holds (.number x) → x.ReadsBack) →
      ∃ json json', v.graph.Unrolls json v.id ∧ (∀ tag, (ofJson tag json').eq v = true) ∧
        ∀ levels, Json.ofText? v.toText levels = if Json.Allows levels json.nesting then some json' else none) := by
  refine ⟨?_, fun fuel hfuel => v.run_write hfuel, exists_unrolls_iff, fun w json hv hw => ?_, ?_⟩
  · obtain ⟨t, hunfolds, htext⟩ := v.exists_unfolding
    refine ⟨t, fun t' => ⟨fun h => h.unique hunfolds, ?_⟩, htext, hasCut_iff hunfolds⟩
    rintro rfl
    exact hunfolds
  · rw [toText_eq hv, toText_eq hw]
    exact ⟨rfl, rfl⟩
  · intro hmade hcyclic hshares hfinite hback
    obtain ⟨json, hunrolls⟩ := exists_unrolls_iff.mpr hcyclic
    obtain ⟨json', heq, hread⟩ := exists_reread hmade.proper (unshared_iff.mpr ⟨hcyclic, hshares⟩)
      (fun x hx => ⟨hfinite x hx, hback x hx⟩) hunrolls
    exact ⟨json, json', hunrolls, heq, hread⟩

/-- An array of two equal objects. -/
def twins : Json :=
  let twin : Json := .object [("half", .number (.decimal (Double.ofRatio false 1 2))), ("name", .string "a\nb")]
  .array [twin, twin]

/-- The same data in a graph with one object for both places. -/
def sharedTwins : Value :=
  ⟨⟨0, #[.array [1, 1], .object [("half", 2), ("name", 3)], .number (Double.ofRatio false 1 2), .string "a\nb"]⟩, 0⟩

/-- The text of the array of two objects is read back unless only one level is allowed, and the graph with one object for
both has the same text. -/
theorem toText_twins :
    (ofJson 0 twins).Made ∧ ¬(ofJson 0 twins).IsCyclic ∧ ¬(ofJson 0 twins).Shares ∧
    (∀ x, (ofJson 0 twins).Holds (.number x) → x.isFinite = true) ∧
    (∀ x, (ofJson 0 twins).Holds (.number x) → x.ReadsBack) ∧
    (ofJson 0 twins).graph.Unrolls twins (ofJson 0 twins).id ∧ sharedTwins.graph.Unrolls twins sharedTwins.id ∧
    sharedTwins.Shares ∧ sharedTwins.toText = (ofJson 0 twins).toText ∧
    ((ofJson 0 twins).graph.write 8 (ofJson 0 twins).id).run ∅ = some ((ofJson 0 twins).toText, ∅) ∧
    (∃ json, (∀ tag, (ofJson tag json).eq (ofJson 0 twins) = true) ∧
      Json.ofText? (ofJson 0 twins).toText Json.usualLevels = some json) ∧
    Json.ofText? (ofJson 0 twins).toText (some 1) = none := by
  have hunshared := unshared_iff.mp (unshared_ofJson 0 twins)
  have hhalf : ∀ x, (ofJson 0 twins).Holds (.number x) → x = Double.ofRatio false 1 2 := by
    rintro x ⟨id, -, hn⟩
    rcases id with _ | _ | _ | _ | _ | _ | _ | id <;> cases hn <;> rfl
  have hunrolls : (ofJson 0 twins).graph.Unrolls twins (ofJson 0 twins).id :=
    .array_of rfl (.cons (.object_of (.inl rfl) (.cons ⟨rfl, .leaf rfl⟩ (.cons ⟨rfl, .leaf rfl⟩ .nil)))
      (.cons (.object_of (.inl rfl) (.cons ⟨rfl, .leaf rfl⟩ (.cons ⟨rfl, .leaf rfl⟩ .nil))) .nil))
  have hshared : sharedTwins.graph.Unrolls twins 0 :=
    .array_of rfl (.cons (.object_of (.inl rfl) (.cons ⟨rfl, .leaf rfl⟩ (.cons ⟨rfl, .leaf rfl⟩ .nil)))
      (.cons (.object_of (.inl rfl) (.cons ⟨rfl, .leaf rfl⟩ (.cons ⟨rfl, .leaf rfl⟩ .nil))) .nil))
  have hfinite : ∀ x, (ofJson 0 twins).Holds (.number x) → x.isFinite = true := fun x hx => by
    rw [hhalf x hx]
    rfl
  have hback : ∀ x, (ofJson 0 twins).Holds (.number x) → x.ReadsBack := fun x hx => by
    rw [hhalf x hx]
    decide +kernel
  obtain ⟨-, hwrite, -, hsame, hreread⟩ := toText_exact (ofJson 0 twins)
  obtain ⟨json, json', hjson, heq, hread⟩ := hreread (.json 0 twins) hunshared.1 hunshared.2 hfinite hback
  obtain rfl := hjson.unique hunrolls
  exact ⟨.json 0 twins, hunshared.1, hunshared.2, hfinite, hback, hunrolls, hshared,
    ⟨0, 0, 0, 1, 1, .root, .root, rfl, rfl, rfl, by decide⟩, (hsame _ _ hunrolls hshared).2, hwrite 8 (by decide),
    ⟨json', heq, (hread _).trans (if_pos (by decide))⟩, (hread _).trans (if_neg (by decide))⟩

example : (Value.mk ⟨0, #[.array [0, 1], .object [("up", 0)]]⟩ 0).toText =
    "[<cycle>,\x7b\"up\":<cycle>\x7d]" := by decide +kernel

end Value

end JsonSchema
