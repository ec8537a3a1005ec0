import GuestScript.Proofs.Count
import GuestScript.Proofs.Json.Parts
import GuestScript.Proofs.Object.Ordinary

/-!
# Documents as values

Making a value of a document puts new objects on the heap and does nothing else. What is said of the value is only
what scripts can see of it (`State.Shows`): an array of plain values, and an object with the members of the document
as ordinary properties, in the order of the document. All objects of the value are new, so that what happens to older
objects does not change what the value shows.
-/

namespace GuestScript

/-! ## 1. What a value shows -/

/-- An array with some elements, and nothing else. -/
def Object.ofElements (elements : Array Value) : Object :=
  { prototype := some Intrinsic.arrayPrototype.id, sort := .array, elements := some elements }

/-- A plain object with ordinary properties. -/
def Object.ofEntries (entries : List (String × Value)) : Object :=
  { prototype := some Intrinsic.objectPrototype.id
    properties := (entries.map fun e => (Key.string e.1, Property.ordinary e.2)).toArray }

theorem Object.ofElements_ne_ofEntries (elements : Array Value) (entries : List (String × Value)) :
    ofElements elements ≠ ofEntries entries := by
  intro h
  cases congrArg Object.sort h

/-- The values of a plain object can be told from it. -/
theorem Object.values_of_ofEntries {names names' : List String} {values values' : List Value}
    (h : names.length = values.length) (h' : names'.length = values'.length)
    (heq : ofEntries (names.zip values) = ofEntries (names'.zip values')) : values = values' := by
  have hentries : names.zip values = names'.zip values' := by
    have hproperties := congrArg (fun o : Object => o.properties.toList) heq
    refine List.map_injective_iff.mpr ?_ hproperties
    intro e e' h
    simpa [Property.ordinary, Property.data, Prod.ext_iff] using h
  have hvalues := congrArg (List.map Prod.snd) hentries
  rwa [List.map_snd_zip (Nat.le_of_eq h.symm), List.map_snd_zip (Nat.le_of_eq h'.symm)] at hvalues

/-- Whether a value shows a document, with all objects that it is made of at addresses from `lo` on. -/
inductive State.Shows (s : State) (lo : Nat) : Json → Value → Prop where
  | null : Shows s lo .null .null
  | bool (b : Bool) : Shows s lo (.bool b) (.boolean b)
  | number (n : Json.Numeral) : Shows s lo (.number n) (.number n.toFloat)
  | string (text : String) : Shows s lo (.string text) (.string text)
  | array {items : List Json} {id : ObjectId} {elements : Array Value} (hid : lo ≤ id.index)
    (hobject : s.objectAt id = .ofElements elements) (hitems : List.Forall₂ (Shows s lo) items elements.toList) :
    Shows s lo (.array items) (.object id)
  | object {members : List (String × Json)} {id : ObjectId} {values : List Value} (hid : lo ≤ id.index)
    (hnames : (members.map Prod.fst).Nodup)
    (hobject : s.objectAt id = .ofEntries ((members.map Prod.fst).zip values))
    (hvalues : List.Forall₂ (Shows s lo) (members.map Prod.snd) values) :
    Shows s lo (.object members) (.object id)

/-- An object with a prototype has a place on the heap. -/
theorem State.lt_size_of_prototype {s : State} {id : ObjectId} (h : (s.objectAt id).prototype ≠ none) :
    id.index < s.heap.size := by
  refine Nat.lt_of_not_le fun hle => h ?_
  rw [objectAt, Array.getD_eq_getD_getElem?, Array.getElem?_eq_none hle]
  rfl

namespace State.Shows

variable {s s' : State} {lo lo' : Nat}

/-- A value shows the same where its objects are the same. -/
theorem mono (hsame : ∀ id : ObjectId, lo ≤ id.index → id.index < s.heap.size → s'.objectAt id = s.objectAt id)
    (hlo : lo' ≤ lo) {j : Json} : ∀ {v : Value}, s.Shows lo j v → s'.Shows lo' j v := by
  induction j using Json.induction with
  | null => rintro _ ⟨⟩; exact .null
  | bool b => rintro _ ⟨⟩; exact .bool b
  | number n => rintro _ ⟨⟩; exact .number n
  | string text => rintro _ ⟨⟩; exact .string text
  | array items ih =>
    intro v h
    cases h with
    | @array _ id elements hid hobject hitems =>
      have hlt : id.index < s.heap.size := lt_size_of_prototype (by simp [hobject, Object.ofElements])
      refine .array (Nat.le_trans hlo hid) ((hsame id hid hlt).trans hobject) ?_
      exact (List.forall₂_iff_zip.mpr ⟨hitems.length_eq, fun hmem =>
        ih _ (List.of_mem_zip hmem).1 (List.forall₂_iff_zip.mp hitems |>.2 hmem)⟩)
  | object members ih =>
    intro v h
    cases h with
    | @object _ id values hid hnames hobject hvalues =>
      have hlt : id.index < s.heap.size := lt_size_of_prototype (by simp [hobject, Object.ofEntries])
      refine .object (Nat.le_trans hlo hid) hnames ((hsame id hid hlt).trans hobject) ?_
      refine List.forall₂_iff_zip.mpr ⟨hvalues.length_eq, fun hmem => ?_⟩
      obtain ⟨e, he, heq⟩ := List.mem_map.mp (List.of_mem_zip hmem).1
      have hshows := (List.forall₂_iff_zip.mp hvalues).2 hmem
      rw [← heq] at hshows ⊢
      exact ih e he hshows

theorem nestingOfItems_eq {items items' : List Json} {values : List Value}
    (ih : ∀ j ∈ items, ∀ {j' : Json} {v : Value}, s.Shows lo j v → s.Shows lo j' v → j.nesting = j'.nesting)
    (h : List.Forall₂ (s.Shows lo) items values) (h' : List.Forall₂ (s.Shows lo) items' values) :
    Json.nestingOfItems items = Json.nestingOfItems items' := by
  induction h generalizing items' with
  | nil =>
    cases h'
    rfl
  | @cons j v items values hj _ ihitems =>
    cases h' with
    | @cons j' _ items' _ hj' hrest =>
      rw [Json.nestingOfItems_cons, Json.nestingOfItems_cons, ih j (by simp) hj hj',
        ihitems (fun i hi => ih i (by simp [hi])) hrest]

/-- Documents that one value shows nest alike. -/
theorem nesting_eq {j : Json} : ∀ {j' : Json} {v : Value}, s.Shows lo j v → s.Shows lo j' v → j.nesting = j'.nesting := by
  induction j using Json.induction with
  | null => rintro _ _ ⟨⟩ ⟨⟩; rfl
  | bool b => rintro _ _ ⟨⟩ ⟨⟩; rfl
  | number n =>
    intro j' v h h'
    cases h
    generalize hv : Value.number n.toFloat = v at h'
    cases h' <;> first
      | rfl
      | cases hv
  | string text => rintro _ _ ⟨⟩ ⟨⟩; rfl
  | array items ih =>
    intro j' v h h'
    cases h with
    | array _ hobject hitems =>
      cases h' with
      | array _ hobject' hitems' =>
        rw [hobject] at hobject'
        cases hobject'
        rw [Json.nesting_array, Json.nesting_array, nestingOfItems_eq ih hitems hitems']
      | object _ _ hobject' _ => exact absurd (hobject.symm.trans hobject') (Object.ofElements_ne_ofEntries _ _)
  | object members ih =>
    intro j' v h h'
    cases h with
    | @object _ id values _ _ hobject hvalues =>
      cases h' with
      | array _ hobject' _ => exact absurd (hobject'.symm.trans hobject) (Object.ofElements_ne_ofEntries _ _)
      | @object members' _ values' _ _ hobject' hvalues' =>
        rw [hobject] at hobject'
        have hvalue : values = values' := Object.values_of_ofEntries (by simpa using hvalues.length_eq)
          (by simpa using hvalues'.length_eq) hobject'
        subst hvalue
        have ihvalues : ∀ j ∈ members.map Prod.snd, ∀ {j' : Json} {v : Value}, s.Shows lo j v → s.Shows lo j' v →
            j.nesting = j'.nesting := by
          intro j hj
          obtain ⟨e, he, rfl⟩ := List.mem_map.mp hj
          exact ih e he
        rw [Json.nesting_object, Json.nesting_object, Json.nestingOfMembers_eq, Json.nestingOfMembers_eq,
          nestingOfItems_eq ihvalues hvalues hvalues']

end State.Shows

/-! ## 2. Machines with more objects -/

/-- Whether a machine is another one with more objects. -/
structure Machine.Grows (m m' : Machine) : Prop where
  rest : m' = { m with heap := m'.heap }
  size : m.heap.size ≤ m'.heap.size
  objects : ∀ id : ObjectId, id.index < m.heap.size → m'.objectAt id = m.objectAt id

namespace Machine.Grows

variable {m m' m'' : Machine}

theorem refl (m : Machine) : m.Grows m :=
  ⟨rfl, Nat.le_refl _, fun _ _ => rfl⟩

theorem trans (h : m.Grows m') (h' : m'.Grows m'') : m.Grows m'' where
  rest := by
    rw [h'.rest, h.rest]
  size := Nat.le_trans h.size h'.size
  objects id hid := (h'.objects id (Nat.lt_of_lt_of_le hid h.size)).trans (h.objects id hid)

/-- A new object. -/
theorem push (m : Machine) (o : Object) : m.Grows { m with heap := m.heap.push o } where
  rest := rfl
  size := by simp
  objects id hid := by simp [State.objectAt, Array.getElem?_push, Nat.ne_of_lt hid]

end Machine.Grows

/-- Whether a machine is another one with more objects, and with changes of the object at one address. -/
structure Machine.Fills (id : ObjectId) (m m' : Machine) : Prop where
  rest : m' = { m with heap := m'.heap }
  size : m.heap.size ≤ m'.heap.size
  others : ∀ id' : ObjectId, id' ≠ id → id'.index < m.heap.size → m'.objectAt id' = m.objectAt id'

namespace Machine.Fills

variable {id : ObjectId} {m m' m'' : Machine}

theorem refl (id : ObjectId) (m : Machine) : m.Fills id m :=
  ⟨rfl, Nat.le_refl _, fun _ _ _ => rfl⟩

theorem trans (h : m.Fills id m') (h' : m'.Fills id m'') : m.Fills id m'' where
  rest := by
    rw [h'.rest, h.rest]
  size := Nat.le_trans h.size h'.size
  others id' hne hid' :=
    (h'.others id' hne (Nat.lt_of_lt_of_le hid' h.size)).trans (h.others id' hne hid')

theorem of_grows (h : m.Grows m') : m.Fills id m' :=
  ⟨h.rest, h.size, fun id' _ hid' => h.objects id' hid'⟩

/-- A new object and changes of it. -/
theorem grows_of_push {o : Object} (h : Fills ⟨m.heap.size⟩ { m with heap := m.heap.push o } m') : m.Grows m' where
  rest := by
    rw [h.rest]
  size := by
    have hsize := h.size
    simp only [Array.size_push] at hsize
    omega
  objects id' hid' := by
    have hne : id' ≠ ⟨m.heap.size⟩ := by
      rintro rfl
      exact Nat.lt_irrefl _ hid'
    rw [h.others id' hne (by simpa using Nat.lt_succ_of_lt hid')]
    exact (Machine.Grows.push m o).objects id' hid'

end Machine.Fills

theorem State.objectAt_pushed (s : State) (o : Object) :
    State.objectAt { s with heap := s.heap.push o } ⟨s.heap.size⟩ = o := by
  simp [objectAt]

namespace Eval

variable {answers : Answers}

/-! ## 3. Making values of documents -/

/-- A new member is put behind the others. -/
theorem define_ofEntries {entries : List (String × Value)} {name : String} (h : name ∉ entries.map Prod.fst)
    (v : Value) :
    (Object.ofEntries entries).define (.string name) (.ordinary v) =
      (.ofEntries (entries ++ [(name, v)]), true) := by
  have hnone : (Object.ofEntries entries).find? (.string name) = none := by
    rw [Object.find?, Object.ofEntries, List.findIdx?_toArray, List.findIdx?_eq_none_iff]
    intro e he
    obtain ⟨d, hd, rfl⟩ := List.mem_map.mp he
    exact beq_eq_false_iff_ne.mpr fun heq => h (List.mem_map.mpr ⟨d, hd, heq⟩)
  have hdefine : (Object.ofEntries entries).define (.string name) (.ordinary v) =
      (Object.ofEntries entries).defineStored (.string name) (.ordinary v) := rfl
  rw [hdefine, Object.defineStored, hnone]
  simp [Object.ofEntries, Descriptor.complete, Descriptor.ordinary, Descriptor.data, Descriptor.isAccessor,
    Property.ordinary, Property.data]

/-- Whether making a value of a document gives one that shows it, on any machine. -/
def Makes (answers : Answers) (j : Json) : Prop :=
  ∀ m : Machine, ∃ v m', (ofJson j).run answers m = .ok v m' ∧ m.Grows m' ∧ m'.Shows m.heap.size j v

/-- The values of items are made one by one. -/
theorem run_ofJsonItems {items : List Json} (h : ∀ j ∈ items, Makes answers j) :
    ∀ (acc : Array Value) (m : Machine), ∃ values m',
      (ofJsonItems items acc).run answers m = .ok (acc ++ values) m' ∧ m.Grows m' ∧
        List.Forall₂ (m'.Shows m.heap.size) items values.toList := by
  induction items with
  | nil =>
    intro acc m
    exact ⟨#[], m, by simp [ofJsonItems, pure, run], .refl m, .nil⟩
  | cons j items ih =>
    intro acc m
    obtain ⟨v, m₁, hv, hgrows, hshows⟩ := h j (by simp) m
    obtain ⟨values, m', hvalues, hgrows', hitems⟩ := ih (fun i hi => h i (by simp [hi])) (acc.push v) m₁
    refine ⟨#[v] ++ values, m', ?_, hgrows.trans hgrows', ?_⟩
    · rw [ofJsonItems, run_bind_of_ok hv, hvalues]
      simp
    · rw [Array.toList_append]
      refine .cons (hshows.mono (fun id _ hid => hgrows'.objects id hid) (Nat.le_refl _)) ?_
      exact hitems.imp fun _ _ hi => hi.mono (fun _ _ _ => rfl) hgrows.size

/-- An object takes a change where it is. -/
theorem fills_updated {α : Type} {m : Machine} {id : ObjectId} (f : Object → Object × α)
    (hid : id.index < m.heap.size) :
    ∃ m', m.updated (.object id f) = .ok (f (m.objectAt id)).2 m' ∧ m.Fills id m' ∧
      m'.objectAt id = (f (m.objectAt id)).1 := by
  refine ⟨{ m with toState := (m.toState.changeObject id f).2 }, rfl, ?_, ?_⟩
  · refine ⟨rfl, by simp [State.changeObject], fun id' hne _ => ?_⟩
    have hindex : id.index ≠ id'.index := by
      rintro heq
      exact hne (by cases id; cases id'; exact congrArg ObjectId.mk heq.symm)
    simp [State.changeObject, State.objectAt, Array.getElem?_setIfInBounds_ne hindex]
  · simp [State.changeObject, State.objectAt, hid]

/-- The members of an object are made and put into it one by one. -/
theorem run_ofJsonMembers {members : List (String × Json)} (h : ∀ e ∈ members, Makes answers e.2) (id : ObjectId) :
    ∀ {entries : List (String × Value)} {m : Machine}, m.objectAt id = .ofEntries entries →
      (entries.map Prod.fst ++ members.map Prod.fst).Nodup →
      ∃ values m', (ofJsonMembers id members).run answers m = .ok () m' ∧ m.Fills id m' ∧
        m'.objectAt id = .ofEntries (entries ++ (members.map Prod.fst).zip values) ∧
        List.Forall₂ (m'.Shows (id.index + 1)) (members.map Prod.snd) values := by
  induction members with
  | nil =>
    intro entries m hobject _
    exact ⟨[], m, by simp [ofJsonMembers, pure, run], .refl id m, by simpa using hobject, .nil⟩
  | cons e members ih =>
    intro entries m hobject hnames
    obtain ⟨name, j⟩ := e
    have hid : id.index < m.heap.size := State.lt_size_of_prototype (by simp [hobject, Object.ofEntries])
    obtain ⟨v, m₁, hv, hgrows, hshows⟩ := h (name, j) (by simp) m
    have hobject₁ : m₁.objectAt id = .ofEntries entries := (hgrows.objects id hid).trans hobject
    have hnew : name ∉ entries.map Prod.fst := fun hmem =>
      (List.nodup_append.mp hnames).2.2 name hmem name (by simp) rfl
    obtain ⟨m₂, hdefine, hfills, hobject₂⟩ := fills_updated (fun o => o.define (.string name) (.ordinary v))
      (Nat.lt_of_lt_of_le hid hgrows.size)
    rw [hobject₁, define_ofEntries hnew] at hobject₂
    obtain ⟨values, m', hvalues, hfills', hobject', hitems⟩ :=
      ih (fun d hd => h d (by simp [hd])) hobject₂ (by simpa using hnames)
    refine ⟨v :: values, m', ?_, (Machine.Fills.of_grows hgrows).trans (hfills.trans hfills'), ?_, ?_⟩
    · rw [ofJsonMembers, run_bind_of_ok hv]
      have hdiscard : (discard (defineOwn id (.string name) (.ordinary v))).run answers m₁ = .ok () m₂ := by
        simp only [discard, Functor.discard, Functor.mapConst, Function.comp, defineOwn, updateObject, run, hdefine]
      rw [run_bind_of_ok hdiscard, hvalues]
    · rw [hobject']
      simp
    · refine .cons (hshows.mono (fun id' hlo hid' => ?_) (Nat.succ_le_of_lt hid)) hitems
      have hne : id' ≠ id := by
        rintro rfl
        exact Nat.lt_irrefl _ (Nat.lt_of_lt_of_le hid hlo)
      rw [hfills'.others id' hne (Nat.lt_of_lt_of_le hid' hfills.size), hfills.others id' hne hid']

/-- **Every document is made a value that shows it**, if the members of each of its objects have different names. -/
theorem makes_of_distinct {j : Json}
    (hnames : ∀ members, Json.Part (.object members) j → (members.map Prod.fst).Nodup) : Makes answers j := by
  induction j using Json.induction with
  | null => exact fun m => ⟨.null, m, rfl, .refl m, .null⟩
  | bool b => exact fun m => ⟨.boolean b, m, rfl, .refl m, .bool b⟩
  | number n => exact fun m => ⟨.number n.toFloat, m, rfl, .refl m, .number n⟩
  | string text => exact fun m => ⟨.string text, m, rfl, .refl m, .string text⟩
  | array items ih =>
    intro m
    have hitems : ∀ i ∈ items, Makes answers i := fun i hi =>
      ih i hi fun members hpart => hnames members (.item hi hpart)
    obtain ⟨values, m₁, hrun, hgrows, hshows⟩ := run_ofJsonItems hitems #[] m
    have hpush := Machine.Grows.push m₁ (.ofElements values)
    refine ⟨.object ⟨m₁.heap.size⟩, { m₁ with heap := m₁.heap.push (.ofElements values) }, ?_, hgrows.trans hpush, ?_⟩
    · rw [ofJson, run_bind_of_ok hrun, Array.empty_append]
      rfl
    · refine .array hgrows.size (State.objectAt_pushed _ _) ?_
      exact hshows.imp fun _ _ hi => hi.mono (fun id _ hid => hpush.objects id hid) (Nat.le_refl _)
  | object members ih =>
    intro m
    have hmembers : ∀ e ∈ members, Makes answers e.2 := fun e he =>
      ih e he fun inside hpart => hnames inside (.member he hpart)
    have hdistinct := hnames members (.refl _)
    have hstart : State.objectAt { m with heap := m.heap.push (.ofEntries []) } ⟨m.heap.size⟩ = .ofEntries [] :=
      State.objectAt_pushed m.toState _
    obtain ⟨values, m', hrun, hfills, hobject, hvalues⟩ := run_ofJsonMembers hmembers ⟨m.heap.size⟩
      (m := { m with heap := m.heap.push (.ofEntries []) }) hstart (by simpa using hdistinct)
    refine ⟨.object ⟨m.heap.size⟩, m', ?_, hfills.grows_of_push, ?_⟩
    · have hnew : newPlain.run answers m =
          .ok ⟨m.heap.size⟩ { m with heap := m.heap.push (.ofEntries []) } := rfl
      rw [ofJson, run_bind_of_ok hnew, run_bind_of_ok hrun]
      rfl
    · refine .object (Nat.le_refl _) hdistinct (by simpa using hobject) ?_
      exact hvalues.imp fun _ _ hi => hi.mono (fun _ _ _ => rfl) (Nat.le_succ _)

end Eval

end GuestScript
