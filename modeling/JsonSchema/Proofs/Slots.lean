import JsonSchema.Proofs.Compile
import JsonSchema.Proofs.Requests
import Mathlib.Data.Finmap

/-!
What the callers of a cache see of it. In memory a cache keeps a slot for every URI that it was asked to load or
given a document for (`Slots`); the slot is there before the load begins, and a load that fails leaves it empty. So a
key is in one of three states, and its callers tell two apart: `Cache.run_shelf` says that whatever is called, the
answers are those of a finite map from URIs without fragment to documents (`Shelf`), and so are those of the documents
at hand (`Store`), which have no slots.

The three are given by the same operations (`Cache.Operations`). One follows another if related states give the same
answers and stay related at every operation (`Operations.Follows`), and then it does so through all calls.
-/

namespace JsonSchema

/-! ### Calls -/

/-- What a load reads and changes besides the cache. A load that enters its URI among the requests shows when it was
called, and for what. -/
structure Ledger where
  requests : List String
  nextTag : Nat

/-- A way to load documents, which leaves the cache alone. -/
abbrev Load (ε : Type) := Uri → ExceptT ε (StateM Ledger) Document

namespace Cache

/-- A call to a cache. -/
inductive Call (ε : Type) where
  | insert (document : Document)
  | insertAs (uri : Uri) (document : Document)
  | remove (uri : Uri)
  | get (uri : Uri)
  | getOrLoad (uri : Uri) (load : Load ε)
  | size
  | isEmpty

/-- What a call returns. -/
inductive Answer (ε : Type) where
  | nothing
  | found (document? : Option Document)
  | loaded (result : Except ε Document)
  | count (n : Nat)
  | truth (b : Bool)

/-- The operations of a cache; a state `σ` holds the documents and what loads read and change. -/
structure Operations (ε σ : Type) where
  insert : Document → σ → σ
  insertAs : Uri → Document → σ → σ
  remove : Uri → σ → Option Document × σ
  get? : Uri → σ → Option Document
  getOrLoad : Uri → Load ε → σ → Except ε Document × σ
  size : σ → Nat
  isEmpty : σ → Bool

namespace Operations

variable {ε σ τ : Type}

/-- The answer to a call, and the state after it. -/
def answer (o : Operations ε σ) : Call ε → σ → Answer ε × σ
  | .insert document, s => (.nothing, o.insert document s)
  | .insertAs uri document, s => (.nothing, o.insertAs uri document s)
  | .remove uri, s => (.found (o.remove uri s).1, (o.remove uri s).2)
  | .get uri, s => (.found (o.get? uri s), s)
  | .getOrLoad uri load, s => (.loaded (o.getOrLoad uri load s).1, (o.getOrLoad uri load s).2)
  | .size, s => (.count (o.size s), s)
  | .isEmpty, s => (.truth (o.isEmpty s), s)

/-- The answers to calls that are made one after the other, and the state after them. -/
def run (o : Operations ε σ) : List (Call ε) → σ → List (Answer ε) × σ
  | [], s => ([], s)
  | call :: calls, s =>
    let (answer, s) := o.answer call s
    let (answers, s) := o.run calls s
    (answer :: answers, s)

/-- In related states the operations give the same answers, and the states after them are related. -/
structure Follows (o : Operations ε σ) (o' : Operations ε τ) (R : σ → τ → Prop) : Prop where
  insert : ∀ document {s t}, R s t → R (o.insert document s) (o'.insert document t)
  insertAs : ∀ uri document {s t}, R s t → R (o.insertAs uri document s) (o'.insertAs uri document t)
  remove : ∀ uri {s t}, R s t → (o.remove uri s).1 = (o'.remove uri t).1 ∧ R (o.remove uri s).2 (o'.remove uri t).2
  get? : ∀ uri {s t}, R s t → o.get? uri s = o'.get? uri t
  getOrLoad : ∀ uri load {s t}, R s t →
    (o.getOrLoad uri load s).1 = (o'.getOrLoad uri load t).1 ∧
      R (o.getOrLoad uri load s).2 (o'.getOrLoad uri load t).2
  size : ∀ {s t}, R s t → o.size s = o'.size t
  isEmpty : ∀ {s t}, R s t → o.isEmpty s = o'.isEmpty t

variable {o : Operations ε σ} {o' : Operations ε τ} {R : σ → τ → Prop}

theorem Follows.answer (h : o.Follows o' R) (call : Call ε) {s : σ} {t : τ} (hR : R s t) :
    (o.answer call s).1 = (o'.answer call t).1 ∧ R (o.answer call s).2 (o'.answer call t).2 := by
  cases call with
  | insert document => exact ⟨rfl, h.insert document hR⟩
  | insertAs uri document => exact ⟨rfl, h.insertAs uri document hR⟩
  | remove uri => exact ⟨congrArg Answer.found (h.remove uri hR).1, (h.remove uri hR).2⟩
  | get uri => exact ⟨congrArg Answer.found (h.get? uri hR), hR⟩
  | getOrLoad uri load => exact ⟨congrArg Answer.loaded (h.getOrLoad uri load hR).1, (h.getOrLoad uri load hR).2⟩
  | size => exact ⟨congrArg Answer.count (h.size hR), hR⟩
  | isEmpty => exact ⟨congrArg Answer.truth (h.isEmpty hR), hR⟩

theorem Follows.run (h : o.Follows o' R) (calls : List (Call ε)) {s : σ} {t : τ} (hR : R s t) :
    (o.run calls s).1 = (o'.run calls t).1 ∧ R (o.run calls s).2 (o'.run calls t).2 := by
  induction calls generalizing s t with
  | nil => exact ⟨rfl, hR⟩
  | cons call calls ih =>
    obtain ⟨hanswer, hnext⟩ := h.answer call hR
    obtain ⟨hanswers, hlast⟩ := ih hnext
    exact ⟨congrArg₂ List.cons hanswer hanswers, hlast⟩

end Operations

end Cache

open Cache (key Operations)

/-! ### The finite map -/

/-- A finite map from URIs without fragment, which are known by their texts, to documents. -/
abbrev Shelf := Finmap fun _ : String => Document

namespace Shelf

variable {ε : Type}

/-- Adds a document under its own URI; without one there is nothing to add. -/
def enter (m : Shelf) (document : Document) : Shelf :=
  match document.uri? with
  | some uri => m.insert (key uri) document
  | none => m

/-- The document of a key, or else the loaded one, which is added if the load succeeds. -/
def getOrLoad (uri : Uri) (load : Load ε) (s : Shelf × Ledger) : Except ε Document × Shelf × Ledger :=
  match s.1.lookup (key uri) with
  | some document => (.ok document, s)
  | none =>
    match load uri.withoutFragment s.2 with
    | (.ok document, ledger) => (.ok document, s.1.insert (key uri) document, ledger)
    | (.error e, ledger) => (.error e, s.1, ledger)

/-- The operations of the map. -/
def operations : Operations ε (Shelf × Ledger) where
  insert document s := (s.1.enter document, s.2)
  insertAs uri document s := (s.1.insert (key uri) document, s.2)
  remove uri s := (s.1.lookup (key uri), s.1.erase (key uri), s.2)
  get? uri s := s.1.lookup (key uri)
  getOrLoad := getOrLoad
  size s := s.1.keys.card
  isEmpty s := decide (s.1.keys = ∅)

end Shelf

/-! ### Slots -/

/-- The slots of a cache by the texts of URIs without fragment: a slot is empty or holds a document. -/
abbrev Slots := Finmap fun _ : String => Option Document

namespace Slots

variable {ε : Type}

/-- The document in the slot of a key, if there is such a slot and it is not empty. -/
def document? (t : Slots) (k : String) : Option Document := (t.lookup k).join

/-- The slots with one for the key, which is empty if it is new. -/
def withSlot (t : Slots) (k : String) : Slots := if k ∈ t then t else t.insert k none

/-- Puts a document into the slot of a key. -/
def fill (t : Slots) (k : String) (document : Document) : Slots := t.insert k (some document)

/-- Enters a document under a URI, in its slot or a new one. -/
def insertAs (t : Slots) (uri : Uri) (document : Document) : Slots :=
  (t.withSlot (key uri)).fill (key uri) document

/-- Enters a document under its own URI; without one there is nothing to enter. -/
def enter (t : Slots) (document : Document) : Slots :=
  match document.uri? with
  | some uri => t.insertAs uri document
  | none => t

/-- The number of slots that hold a document. -/
def size (t : Slots) : Nat := t.entries.countP fun entry => entry.2.isSome

/-- The document in the slot of a URI, or else the loaded one, which is put there. The slot is there before the load
begins, and stays if the load fails. -/
def getOrLoad (uri : Uri) (load : Load ε) (s : Slots × Ledger) : Except ε Document × Slots × Ledger :=
  let t := s.1.withSlot (key uri)
  match t.document? (key uri) with
  | some document => (.ok document, t, s.2)
  | none =>
    match load uri.withoutFragment s.2 with
    | (.ok document, ledger) => (.ok document, t.fill (key uri) document, ledger)
    | (.error e, ledger) => (.error e, t, ledger)

/-- The operations of a cache with slots. -/
def operations : Operations ε (Slots × Ledger) where
  insert document s := (s.1.enter document, s.2)
  insertAs uri document s := (s.1.insertAs uri document, s.2)
  remove uri s := (s.1.document? (key uri), s.1.erase (key uri), s.2)
  get? uri s := s.1.document? (key uri)
  getOrLoad := getOrLoad
  size s := s.1.size
  isEmpty s := s.1.size == 0

end Slots

/-! ### The documents at hand -/

namespace Store

variable {ε : Type}

/-- What loads read and change. -/
def ledger (s : Store) : Ledger := ⟨s.requests, s.nextTag⟩

/-- A load among the documents at hand. -/
def lift (load : Load ε) (uri : Uri) : Loading ε Document := fun s =>
  let (result, ledger) := load uri s.ledger
  (result, { s with requests := ledger.requests, nextTag := ledger.nextTag })

/-- The operations of the cache that the documents at hand are in. -/
def operations : Operations ε Store where
  insert document s := (Store.insert document s).2
  insertAs uri document s := { s with cache := s.cache.insertAs uri document }
  remove uri s := (s.cache.get? uri, { s with cache := s.cache.remove uri })
  get? uri s := s.cache.get? uri
  getOrLoad uri load s := Store.getOrLoad uri (lift load) s
  size s := s.cache.size
  isEmpty s := s.cache.isEmpty

end Store

/-! ### What is seen of slots -/

namespace Slots

variable {ε : Type} {t : Slots} {m : Shelf} {k k' : String} {d : Document} {uri : Uri}

theorem document?_withSlot (t : Slots) (k k' : String) : (t.withSlot k).document? k' = t.document? k' := by
  unfold withSlot
  split
  · rfl
  · next hk =>
    unfold document?
    by_cases he : k' = k
    · rw [he, Finmap.lookup_insert, Finmap.lookup_eq_none.mpr hk]
      rfl
    · rw [Finmap.lookup_insert_of_ne _ he]

theorem document?_fill (t : Slots) (k k' : String) (d : Document) :
    (t.fill k d).document? k' = if k' = k then some d else t.document? k' := by
  unfold fill document?
  split
  · next he => rw [he, Finmap.lookup_insert, Option.join_some]
  · next he => rw [Finmap.lookup_insert_of_ne _ he]

theorem document?_erase (t : Slots) (k k' : String) :
    document? (t.erase k) k' = if k' = k then none else t.document? k' := by
  unfold document?
  split
  · next he => rw [he, Finmap.lookup_erase, Option.join_none]
  · next he => rw [Finmap.lookup_erase_ne he]

/-- The map of the documents in the slots. -/
def Holds (t : Slots) (m : Shelf) : Prop := ∀ k, m.lookup k = t.document? k

theorem Holds.withSlot (h : t.Holds m) (k : String) : (t.withSlot k).Holds m := fun k' => by
  rw [h k', document?_withSlot]

theorem Holds.fill (h : t.Holds m) (k : String) (d : Document) : (t.fill k d).Holds (m.insert k d) := fun k' => by
  rw [document?_fill]
  split
  · next he => rw [he, Finmap.lookup_insert]
  · next he => rw [Finmap.lookup_insert_of_ne _ he, h k']

theorem Holds.erase (h : t.Holds m) (k : String) : Holds (t.erase k) (m.erase k) := fun k' => by
  rw [document?_erase]
  split
  · next he => rw [he, Finmap.lookup_erase]
  · next he => rw [Finmap.lookup_erase_ne he, h k']

theorem Holds.insertAs (h : t.Holds m) (uri : Uri) (d : Document) : (t.insertAs uri d).Holds (m.insert (key uri) d) :=
  (h.withSlot _).fill _ _

theorem Holds.enter (h : t.Holds m) (d : Document) : (t.enter d).Holds (m.enter d) := by
  unfold Slots.enter Shelf.enter
  cases d.uri? with
  | none => exact h
  | some uri => exact h.insertAs uri d

theorem Holds.keys (h : t.Holds m) : m.keys = t.keys.filter fun k => (t.document? k).isSome := by
  ext k
  rw [Finset.mem_filter, Finmap.mem_keys, Finmap.mem_keys, ← Finmap.lookup_isSome, ← Finmap.lookup_isSome, h k]
  unfold document?
  cases t.lookup k <;> simp

/-- The slots that hold a document are counted by their keys. -/
theorem Holds.size (h : t.Holds m) : t.size = m.keys.card := by
  have hentry : ∀ entry ∈ t.entries, t.document? entry.1 = entry.2 := fun entry he => by
    rw [document?, Finmap.lookup_eq_some_iff.mpr he, Option.join_some]
  calc t.size = t.entries.countP fun entry => (t.document? entry.1).isSome :=
        Multiset.countP_congr rfl fun entry he => by rw [hentry entry he]
    _ = (t.entries.map Sigma.fst).countP fun k => (t.document? k).isSome := by
        rw [Multiset.countP_map, Multiset.countP_eq_card_filter]
    _ = t.keys.val.countP fun k => (t.document? k).isSome := rfl
    _ = (t.keys.filter fun k => (t.document? k).isSome).card := Multiset.countP_eq_card_filter _ _
    _ = m.keys.card := by rw [h.keys]

/-- Slots and a map with what loads read and change, which is the same for both. -/
def Shows (s : Slots × Ledger) (s' : Shelf × Ledger) : Prop := s.1.Holds s'.1 ∧ s.2 = s'.2

theorem shows_getOrLoad (uri : Uri) (load : Load ε) {s : Slots × Ledger} {s' : Shelf × Ledger} (h : Shows s s') :
    (getOrLoad uri load s).1 = (Shelf.getOrLoad uri load s').1 ∧
      Shows (getOrLoad uri load s).2 (Shelf.getOrLoad uri load s').2 := by
  obtain ⟨t, ledger⟩ := s
  obtain ⟨m, ledger'⟩ := s'
  obtain ⟨hm, hl⟩ := h
  cases hl
  have hslot : (t.withSlot (key uri)).Holds m := hm.withSlot (key uri)
  simp only [getOrLoad, Shelf.getOrLoad, ← hslot (key uri)]
  cases m.lookup (key uri) with
  | some document => exact ⟨rfl, hslot, rfl⟩
  | none =>
    cases load uri.withoutFragment ledger with
    | mk result ledger' =>
      cases result with
      | ok document => exact ⟨rfl, hslot.fill _ _, rfl⟩
      | error e => exact ⟨rfl, hslot, rfl⟩

theorem operations_follow : (@operations ε).Follows Shelf.operations Shows where
  insert document s s' h := ⟨h.1.enter document, h.2⟩
  insertAs uri document s s' h := ⟨h.1.insertAs uri document, h.2⟩
  remove uri s s' h := ⟨(h.1 _).symm, h.1.erase _, h.2⟩
  get? uri s s' h := (h.1 _).symm
  getOrLoad uri load s s' h := shows_getOrLoad uri load h
  size h := h.1.size
  isEmpty {s s'} h := by
    show (s.1.size == 0) = decide (s'.1.keys = ∅)
    rw [h.1.size, Bool.eq_iff_iff, beq_iff_eq, decide_eq_true_iff, Finset.card_eq_zero]

end Slots

/-! ### What is seen of the documents at hand -/

namespace Cache

variable {c : Cache} {m : Shelf} {k : String} {d : Document} {uri : Uri}

/-- The map of the documents in a cache, which has an entry for each of its keys. -/
structure Holds (c : Cache) (m : Shelf) : Prop where
  nodup : (c.entries.map (·.1)).Nodup
  lookup : ∀ k, m.lookup k = c.entries.lookup k

theorem Holds.insertAs (h : c.Holds m) (uri : Uri) (d : Document) : (c.insertAs uri d).Holds (m.insert (key uri) d) where
  nodup := Members.nodup_insert h.nodup
  lookup k := by
    rw [lookup_insertAs]
    split
    · next he => rw [he, Finmap.lookup_insert]
    · next he => rw [Finmap.lookup_insert_of_ne _ he, h.lookup k]

theorem Holds.insert (h : c.Holds m) (d : Document) : (c.insert d).Holds (m.enter d) := by
  unfold Cache.insert Shelf.enter
  cases d.uri? with
  | none => exact h
  | some uri => exact h.insertAs uri d

theorem Holds.remove (h : c.Holds m) (uri : Uri) : (c.remove uri).Holds (m.erase (key uri)) where
  nodup := h.nodup.sublist (List.filter_sublist.map _)
  lookup k := by
    rw [lookup_remove]
    split
    · next he => rw [he, Finmap.lookup_erase]
    · next he => rw [Finmap.lookup_erase_ne he, h.lookup k]

theorem Holds.size (h : c.Holds m) : c.size = m.keys.card := by
  have hkeys : m.keys = (c.entries.map (·.1)).toFinset := by
    ext k
    rw [Finmap.mem_keys, ← Finmap.lookup_isSome, h.lookup k, List.mem_toFinset, List.mem_map]
    constructor
    · intro hk
      obtain ⟨d, hd⟩ := Option.isSome_iff_exists.mp hk
      exact ⟨(k, d), mem_of_lookup hd, rfl⟩
    · rintro ⟨⟨k', d⟩, hd, rfl⟩
      rw [lookup_of_mem h.nodup hd]
      rfl
  rw [hkeys, List.toFinset_card_of_nodup h.nodup, List.length_map, Cache.size]

end Cache

namespace Store

variable {ε : Type}

/-- The documents at hand and a map with what loads read and change, which is the same for both. -/
def Shows (s : Store) (s' : Shelf × Ledger) : Prop := s.cache.Holds s'.1 ∧ s.ledger = s'.2

theorem shows_getOrLoad (uri : Uri) (load : Load ε) {s : Store} {s' : Shelf × Ledger} (h : s.Shows s') :
    (getOrLoad uri (lift load) s).1 = (Shelf.getOrLoad uri load s').1 ∧
      Shows (getOrLoad uri (lift load) s).2 (Shelf.getOrLoad uri load s').2 := by
  obtain ⟨m, ledger⟩ := s'
  obtain ⟨hm, hl⟩ := h
  change s.ledger = ledger at hl
  subst hl
  simp only [getOrLoad_run, Shelf.getOrLoad, hm.lookup (key uri), Cache.get?]
  cases s.cache.entries.lookup (key uri) with
  | some document => exact ⟨rfl, hm, rfl⟩
  | none =>
    dsimp only [lift]
    cases load uri.withoutFragment s.ledger with
    | mk result ledger =>
      cases result with
      | ok document => exact ⟨rfl, hm.insertAs uri document, rfl⟩
      | error e => exact ⟨rfl, hm, rfl⟩

theorem operations_follow : (@operations ε).Follows Shelf.operations Shows where
  insert document s s' h := ⟨h.1.insert document, h.2⟩
  insertAs uri document s s' h := ⟨h.1.insertAs uri document, h.2⟩
  remove uri s s' h := ⟨(h.1.lookup _).symm, h.1.remove uri, h.2⟩
  get? uri s s' h := (h.1.lookup _).symm
  getOrLoad uri load s s' h := shows_getOrLoad uri load h
  size h := h.1.size
  isEmpty {s s'} h := by
    show s.cache.isEmpty = decide (s'.1.keys = ∅)
    rw [Cache.isEmpty, Bool.eq_iff_iff, decide_eq_true_iff, List.isEmpty_iff, ← List.length_eq_zero_iff,
      ← Finset.card_eq_zero, ← h.1.size, Cache.size]

end Store

/-- The requests of a loader leave the cache alone. -/
theorem Loader.exists_load (loader? : Option Loader) :
    ∃ load : Load LoadFault, ∀ uri s, Store.lift load uri s = Loader.fetch loader? uri s := by
  refine ⟨fun uri ledger =>
    let (result, s) := Loader.fetch loader? uri ⟨.empty, ledger.requests, ledger.nextTag⟩
    (result, s.ledger), fun uri s => ?_⟩
  cases loader? with
  | none => rfl
  | some loader =>
    simp only [Store.lift, fetch_run, Store.ledger]
    cases loader.answer uri.toText (s.requests.count uri.toText) <;> rfl

/-! ### The cache as a finite map -/

/-- **A cache is a finite map.** For all calls, made one after the other to a new cache, the answers of the slots and
those of the documents at hand are the answers of the finite map from URIs without fragment to documents, and every
load is called as it is for the map. -/
theorem Cache.run_shelf {ε : Type} (calls : List (Cache.Call ε)) (ledger : Ledger) :
    let shelf := Shelf.operations.run calls (∅, ledger)
    let slots := Slots.operations.run calls (∅, ledger)
    let store := Store.operations.run calls ⟨.empty, ledger.requests, ledger.nextTag⟩
    (slots.1 = shelf.1 ∧ (∀ uri, slots.2.1.document? (key uri) = shelf.2.1.lookup (key uri)) ∧ slots.2.2 = shelf.2.2) ∧
      store.1 = shelf.1 ∧ (∀ uri, store.2.cache.get? uri = shelf.2.1.lookup (key uri)) ∧ store.2.ledger = shelf.2.2 := by
  have hslots : Slots.Shows (∅, ledger) (∅, ledger) := ⟨fun _ => rfl, rfl⟩
  have hstore : Store.Shows ⟨.empty, ledger.requests, ledger.nextTag⟩ (∅, ledger) := ⟨⟨.nil, fun _ => rfl⟩, rfl⟩
  obtain ⟨hanswers, hm, hl⟩ := Slots.operations_follow.run calls hslots
  obtain ⟨hanswers', hm', hl'⟩ := Store.operations_follow.run calls hstore
  exact ⟨⟨hanswers, fun uri => (hm _).symm, hl⟩, hanswers', fun uri => (hm'.lookup _).symm, hl'⟩

end JsonSchema
