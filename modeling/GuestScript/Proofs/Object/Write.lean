import GuestScript.Builtin.Collection
import Mathlib.Data.List.Perm.Subperm

/-!
# Chains of prototypes, and how objects are written to

The walk along a chain ends at an object without a prototype, or where it comes back to its start (`State.Walk`). It
meets no object twice, and all objects on it but the last are on the heap, so the bound of the walk does not matter: it
finds every chain that has an end (`State.chain?_eq_some_iff`).

Every change of an object on the heap is of one of two sorts (`Object.Written`). A change that *asks* leaves it to the
object what becomes of it: an object that is closed to new properties, or frozen, may refuse. Code that *sets up* an
object puts properties and slots into it without asking; it is meant for objects that have just been made.
-/

namespace GuestScript.State

variable {s : State} {start id : ObjectId} {ids : List ObjectId}

/-! ## 1. Walks -/

/-- The objects on a chain of prototypes, from one on to the end, or to the first link back to the start. -/
inductive Walk (s : State) (start : ObjectId) : ObjectId → List ObjectId → Prop where
  | last {id : ObjectId} (h : ∀ p, (s.objectAt id).prototype = some p → p = start) : Walk s start id [id]
  | link {id p : ObjectId} {ids : List ObjectId} (h : (s.objectAt id).prototype = some p) (hne : p ≠ start)
      (rest : Walk s start p ids) : Walk s start id (id :: ids)

theorem chainFrom_succ (s : State) (start : ObjectId) (fuel : Nat) (id : ObjectId) :
    s.chainFrom start (fuel + 1) id =
      match (s.objectAt id).prototype with
      | some parent => if parent = start then some [id] else (s.chainFrom start fuel parent).map (id :: ·)
      | none => some [id] := rfl

/-- What the bounded walk finds is a walk. -/
theorem walk_of_chainFrom : ∀ {fuel : Nat} {id : ObjectId} {ids : List ObjectId},
    s.chainFrom start fuel id = some ids → s.Walk start id ids
  | fuel + 1, id, ids, h => by
    rw [chainFrom_succ] at h
    cases hparent : (s.objectAt id).prototype with
    | none =>
      rw [hparent] at h
      cases h
      exact .last fun p hp => by simp [hparent] at hp
    | some parent =>
      rw [hparent] at h
      dsimp only at h
      split at h
      next hback =>
        cases h
        exact .last fun p hp => Option.some.inj (hp.symm.trans hparent) |>.trans hback
      next hne =>
        obtain ⟨rest, hrest, rfl⟩ := Option.map_eq_some_iff.mp h
        exact .link hparent hne (walk_of_chainFrom hrest)

/-- A walk is found under any bound that it fits in. -/
theorem Walk.chainFrom (h : s.Walk start id ids) : ∀ {fuel : Nat}, ids.length ≤ fuel →
    s.chainFrom start fuel id = some ids := by
  induction h with
  | last h =>
    rintro (_ | fuel) hfuel
    · simp at hfuel
    rw [chainFrom_succ]
    split
    next parent hparent => rw [if_pos (h parent hparent)]
    · rfl
  | link h hne _ ih =>
    rintro (_ | fuel) hfuel
    · simp at hfuel
    rw [chainFrom_succ, h]
    dsimp only
    rw [if_neg hne, ih (Nat.le_of_succ_le_succ hfuel)]
    rfl

/-! ## 2. The bound -/

/-- There is one walk from an object. -/
theorem Walk.unique (h : s.Walk start id ids) : ∀ {ids' : List ObjectId}, s.Walk start id ids' → ids = ids' := by
  induction h with
  | last h =>
    rintro _ (_ | ⟨h', hne, -⟩)
    · rfl
    · exact absurd (h _ h') hne
  | link h hne _ ih =>
    rintro _ (h' | ⟨h', -, hrest⟩)
    · exact absurd (h' _ h) hne
    · cases h.symm.trans h'
      rw [ih hrest]

/-- The end of a walk is the walk from there. -/
theorem Walk.suffix (h : s.Walk start id ids) {q : ObjectId} (hq : q ∈ ids) :
    ∃ rest, rest <:+ ids ∧ s.Walk start q rest := by
  induction h with
  | last h =>
    cases List.mem_singleton.mp hq
    exact ⟨_, List.suffix_refl _, .last h⟩
  | link h hne hrest ih =>
    rcases List.mem_cons.mp hq with rfl | hmem
    · exact ⟨_, List.suffix_refl _, .link h hne hrest⟩
    · obtain ⟨rest, hsuffix, hwalk⟩ := ih hmem
      exact ⟨rest, hsuffix.trans (List.suffix_cons _ _), hwalk⟩

/-- A walk meets no object twice: it would have no end. -/
theorem Walk.nodup (h : s.Walk start id ids) : ids.Nodup := by
  induction h with
  | last _ => exact List.pairwise_singleton _ _
  | link h hne hrest ih =>
    refine List.nodup_cons.mpr ⟨fun hmem => ?_, ih⟩
    obtain ⟨rest, hsuffix, hwalk⟩ := hrest.suffix hmem
    have hlength := hsuffix.length_le
    rw [hwalk.unique (.link h hne hrest), List.length_cons] at hlength
    omega

/-- Where there is no object, there is nothing to find. -/
theorem objectAt_of_size_le {id : ObjectId} (h : s.heap.size ≤ id.index) : s.objectAt id = default := by
  simp [objectAt, h]

/-- An object with a prototype is on the heap. -/
theorem index_lt_of_prototype {p : ObjectId} (h : (s.objectAt id).prototype = some p) : id.index < s.heap.size := by
  by_contra hle
  rw [objectAt_of_size_le (Nat.le_of_not_lt hle)] at h
  cases h

/-- All objects on a walk but the last are on the heap. -/
theorem Walk.index_lt (h : s.Walk start id ids) : ∀ q ∈ ids.dropLast, q.index < s.heap.size := by
  induction h with
  | last _ => simp
  | link h _ hrest ih =>
    intro q hq
    cases hrest with
    | last _ =>
      cases List.mem_singleton.mp hq
      exact index_lt_of_prototype h
    | link _ _ _ =>
      rcases List.mem_cons.mp hq with rfl | hmem
      · exact index_lt_of_prototype h
      · exact ih q hmem

/-- Different objects of a heap are no more than its size. -/
theorem length_le_size (hnodup : ids.Nodup) (hinside : ∀ id ∈ ids, id.index < s.heap.size) :
    ids.length ≤ s.heap.size := by
  have hsubset : ids ⊆ (List.range s.heap.size).map ObjectId.mk := fun q hq =>
    List.mem_map.mpr ⟨q.index, List.mem_range.mpr (hinside q hq), rfl⟩
  simpa using (hnodup.subperm hsubset).length_le

/-- Another object in front of different ones. -/
theorem cons_of_notMem (hnodup : ids.Nodup) (hinside : ∀ id ∈ ids, id.index < s.heap.size) (hmem : id ∉ ids)
    (hid : id.index < s.heap.size) :
    (id :: ids).Nodup ∧ (∀ q ∈ id :: ids, q.index < s.heap.size) ∧ ids.length < s.heap.size := by
  have hnodup' : (id :: ids).Nodup := List.nodup_cons.mpr ⟨hmem, hnodup⟩
  have hinside' : ∀ q ∈ id :: ids, q.index < s.heap.size := List.forall_mem_cons.mpr ⟨hid, hinside⟩
  exact ⟨hnodup', hinside', Nat.lt_of_succ_le (length_le_size hnodup' hinside')⟩

theorem Walk.length_le (h : s.Walk start id ids) : ids.length ≤ s.heap.size + 1 := by
  have hlength := length_le_size (h.nodup.sublist (List.dropLast_sublist _)) h.index_lt
  rw [List.length_dropLast] at hlength
  omega

/-- **The chain of an object** is the walk that ends where it began, or without a prototype. -/
theorem chain?_eq_some_iff : s.chain? id = some ids ↔ s.Walk id id ids :=
  ⟨walk_of_chainFrom, fun h => h.chainFrom h.length_le⟩

/-- Any bound that all objects fit under gives the same chain. -/
theorem chainFrom_of_size_lt {fuel : Nat} (hfuel : s.heap.size < fuel) (id : ObjectId) :
    s.chainFrom id fuel id = s.chain? id := by
  refine Option.ext fun ids => ?_
  rw [chain?_eq_some_iff]
  exact ⟨walk_of_chainFrom, fun h => h.chainFrom (Nat.le_trans h.length_le hfuel)⟩

end GuestScript.State

namespace GuestScript

namespace Collection

/-! ## 3. Entries of collections -/

/-- How the places of a collection may change: an entry takes the place of one with the same key, a place becomes a gap,
or an entry is added behind all places. -/
inductive Edited {α : Type} (key : α → Value) (before : Array (Option α)) : Array (Option α) → Prop where
  | kept : Edited key before before
  | replaced (i : Nat) {a b : α} (ha : before[i]? = some (some a)) (hsame : (key a).sameValueZero (key b) = true) :
      Edited key before (before.setIfInBounds i (some b))
  | deleted (i : Nat) : Edited key before (before.setIfInBounds i none)
  | added (a : α) : Edited key before (before.push (some a))

/-- How the places of an object's entries may change. -/
structure EditedObject (o o' : Object) : Prop where
  entries : Option.Rel (Edited Prod.fst) o.mapEntries o'.mapEntries
  members : Option.Rel (Edited id) o.setEntries o'.setEntries
  rest : o' = { o with mapEntries := o'.mapEntries, setEntries := o'.setEntries }

theorem Edited.rel_refl {α : Type} (key : α → Value) (places : Option (Array (Option α))) :
    Option.Rel (Edited key) places places := by
  cases places with
  | none => exact .none
  | some es => exact .some .kept

theorem EditedObject.refl (o : Object) : EditedObject o o :=
  ⟨Edited.rel_refl _ _, Edited.rel_refl _ _, rfl⟩

theorem EditedObject.ofEntries {o : Object} {es es' : Array (Option (Value × Value))} (h : o.mapEntries = some es)
    (hes : Edited Prod.fst es es') : EditedObject o { o with mapEntries := some es' } :=
  ⟨by rw [h]; exact .some hes, Edited.rel_refl _ _, rfl⟩

theorem EditedObject.ofMembers {o : Object} {ms ms' : Array (Option Value)} (h : o.setEntries = some ms)
    (hms : Edited id ms ms') : EditedObject o { o with setEntries := some ms' } :=
  ⟨Edited.rel_refl _ _, by rw [h]; exact .some hms, rfl⟩

/-- The entry in the place of a key has this key. -/
theorem entry_of_findKey? {entries : Array (Option (Value × Value))} {key : Value} {i : Nat}
    (h : findKey? entries key = some i) :
    ∃ entry, entries[i]? = some (some entry) ∧ entry.1.sameValueZero key = true := by
  obtain ⟨hi, hentry, -⟩ := Array.findIdx?_eq_some_iff_getElem.mp h
  obtain ⟨entry, hsome, hsame⟩ := (Option.any_eq_true _ _).mp hentry
  exact ⟨entry, by rw [Array.getElem?_eq_getElem hi, hsome], hsame⟩

theorem edited_insertEntry (entries : Array (Option (Value × Value))) (key value : Value) :
    Edited Prod.fst entries (insertEntry entries key value) := by
  unfold insertEntry
  dsimp only
  cases h : findKey? entries (normalKey key) with
  | none => exact .added _
  | some i =>
    obtain ⟨entry, hentry, hsame⟩ := entry_of_findKey? h
    exact .replaced i hentry hsame

theorem edited_insertMember (members : Array (Option Value)) (member : Value) :
    Edited id members (insertMember members member) := by
  unfold insertMember
  dsimp only
  split
  · exact .kept
  · exact .added _

theorem edited_erase (o : Object) (key : Value) : EditedObject o (erase o key).1 := by
  have hmember (i : Nat) : Option.Rel (Edited id) o.setEntries (o.setEntries.map fun ms => ms.setIfInBounds i none) := by
    cases o.setEntries with
    | none => exact .none
    | some ms => exact .some (.deleted i)
  unfold erase
  split
  · exact .refl o
  · split
    next es hes => exact .ofEntries hes (.deleted _)
    · exact ⟨Edited.rel_refl _ _, hmember _, rfl⟩

end Collection

namespace Object

/-! ## 4. Two sorts of changes -/

/-- Changes that leave it to the object what becomes of it, or do not touch its properties. -/
inductive Asked : {α : Type} → (Object → Object × α) → Prop where
  | define (key : Key) (d : Descriptor) : Asked fun o => o.define key d
  | delete (key : Key) : Asked fun o => o.delete key
  | freeze : Asked fun o => (o.freeze, ())
  | close : Asked fun o => ({ o with extensible := false }, ())
  | elements {α : Type} (f : Array Value → Array Value × α) : Asked fun o => o.changeElements f
  /-- A change of single entries of a collection. -/
  | entries {α : Type} {f : Object → Object × α} (hf : ∀ o, Collection.EditedObject o (f o).1) : Asked f
  | clear : Asked fun o => (Collection.clear o, ())
  /-- A change of the time of a date. -/
  | time (t : Float) : Asked fun o => ({ o with primitive := some (.number t) }, ())

/-- Changes that set an object up without asking it. -/
inductive SetUp : (Object → Object) → Prop where
  | store (key : Key) (p : Property) : SetUp fun o => o.store key p
  | insert (name : String) (p : Property) : SetUp fun o => o.insert name p
  /-- The object becomes one of a sort. -/
  | become (sort : ObjectClass) {g : Object → Object}
      (hg : ∀ o, ∃ elements primitive entries members regex,
        g o = { o with sort := sort, elements := elements, primitive := primitive, mapEntries := entries,
                       setEntries := members, regex := regex } ∧
          (o.elements.isSome = true → elements.isSome = true)) : SetUp g
  | andThen {g g' : Object → Object} (hg : SetUp g) (hg' : SetUp g') : SetUp fun o => g' (g o)

/-- The changes of objects that there are. -/
inductive Written {α : Type} (f : Object → Object × α) : Prop where
  | asked (hf : Asked f)
  | setUp {g : Object → Object} (hg : SetUp g) (hf : ∀ o, (f o).1 = g o)

theorem SetUp.written {g : Object → Object} (hg : SetUp g) : Written fun o => (g o, ()) :=
  .setUp hg fun _ => rfl

/-- To put in any number of properties. -/
theorem written_insertAll (entries : List (String × Value)) :
    Written fun o => (entries.foldl (fun o entry => o.insertValue entry.1 entry.2) o, ()) := by
  cases entries with
  | nil => exact .asked (.entries Collection.EditedObject.refl)
  | cons first rest =>
    refine SetUp.written ?_
    induction rest generalizing first with
    | nil => exact .insert _ _
    | cons second rest ih => exact .andThen (.insert first.1 (.ordinary first.2)) (ih second)

/-! ## 5. Links -/

theorem prototype_store (o : Object) (key : Key) (p : Property) : (o.store key p).prototype = o.prototype := by
  unfold store
  split <;> rfl

theorem prototype_insert (o : Object) (name : String) (p : Property) :
    (o.insert name p).prototype = o.prototype := by
  unfold insert
  split
  · split
    · rfl
    · exact prototype_store o _ p
  · exact prototype_store o _ p

/-- To set an object up leaves its link. -/
theorem SetUp.prototype {g : Object → Object} (hg : SetUp g) (o : Object) : (g o).prototype = o.prototype := by
  induction hg generalizing o with
  | store key p => exact prototype_store o key p
  | insert name p => exact prototype_insert o name p
  | become sort hg =>
    obtain ⟨_, _, _, _, _, heq, -⟩ := hg o
    rw [heq]
  | andThen _ _ ih ih' => exact (ih' _).trans (ih o)

end Object

end GuestScript
