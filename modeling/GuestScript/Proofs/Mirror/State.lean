import GuestScript.Proofs.Object.Write
import Mathlib.Data.Fintype.Card
import GuestScript.Proofs.Mirror.Object

/-!
# Looking things up in a mirror

The object of a scope is like any other one on the heap, but it is simple: it has no prototype and no special slots,
and all its properties are values. That stays so whatever a script does to its names. A name that is written changes
no other name.

Whatever a script can look up in a state, it can look up in a mirror of it, and finds the same, moved.

Walks along prototypes and scopes are bounded by the number of objects or scopes there are, and a mirror may have more
of them or fewer. So it has to be shown that the bound does not matter:

* A property that is found after `n` prototypes is found after fewer from the objects in between, so these are all
  different, and there are at most as many of them as the heap has objects (`lookupFrom_of_size_le`).
* Every scope is younger than its parent, so the address of the first one bounds the walk.
-/

namespace GuestScript

variable {p : Property} {d : Descriptor}

/-! ## 1. Entries -/

/-- An entry that is not looked for can be changed to another such entry. -/
theorem find?_set_of_not {α : Type} (f : α → Bool) {a : α} (ha : f a = false) :
    ∀ (l : List α) (i : Nat), (∀ b, l[i]? = some b → f b = false) → (l.set i a).find? f = l.find? f
  | [], _, _ => rfl
  | b :: l, 0, h => by
    have hb : f b = false := h b rfl
    simp only [List.set_cons_zero, List.find?_cons, ha, hb]
  | b :: l, i + 1, h => by
    have hrest := find?_set_of_not f ha l i fun c hc => h c hc
    simp only [List.set_cons_succ, List.find?_cons, hrest]

theorem Key.eq_of_same_string {key : Key} {name : String} (h : key.same (.string name) = true) :
    key = .string name := by
  cases key with
  | string s => exact congrArg _ (eq_of_beq h)
  | symbol s => cases h

theorem Key.same_string_of_ne {name name' : String} (h : name' ≠ name) :
    (Key.string name).same (.string name') = false :=
  beq_eq_false_iff_ne.mpr h.symm

namespace Object

variable {o : Object} {name name' : String}

/-- The entry in the place of a name has that name. -/
theorem fst_of_find? {i : Nat} {entry : Key × Property} (hi : o.find? (.string name) = some i)
    (hentry : o.properties[i]? = some entry) : entry.1 = .string name := by
  obtain ⟨hlt, hsame, -⟩ := Array.findIdx?_eq_some_iff_getElem.mp hi
  rw [Array.getElem?_eq_getElem hlt] at hentry
  cases hentry
  exact Key.eq_of_same_string hsame

/-- An entry in the place of a name is found under no other name. -/
theorem find?_properties_set (hne : name' ≠ name) {i : Nat} (hi : o.find? (.string name) = some i) (p : Property) :
    (o.properties.setIfInBounds i (.string name, p)).find? (fun entry => entry.1.same (.string name')) =
      o.properties.find? fun entry => entry.1.same (.string name') := by
  rw [← Array.find?_toList, ← Array.find?_toList, Array.toList_setIfInBounds]
  refine find?_set_of_not (fun entry : Key × Property => entry.1.same (.string name'))
    (Key.same_string_of_ne hne) _ i fun entry hentry => ?_
  rw [Array.getElem?_toList] at hentry
  rw [fst_of_find? hi hentry]
  exact Key.same_string_of_ne hne

/-- A new entry is found under no other name. -/
theorem find?_properties_push (hne : name' ≠ name) (p : Property) :
    (o.properties.push (.string name, p)).find? (fun entry => entry.1.same (.string name')) =
      o.properties.find? fun entry => entry.1.same (.string name') := by
  simp [Array.find?_push, Key.same_string_of_ne hne]

theorem stored?_store_of_ne (hne : name' ≠ name) (p : Property) :
    (o.store (.string name) p).stored? (.string name') = o.stored? (.string name') := by
  unfold store
  split
  · rename_i i hi
    exact congrArg (Option.map Prod.snd) (find?_properties_set hne hi p)
  · exact congrArg (Option.map Prod.snd) (find?_properties_push hne p)

theorem stored?_defineStored_of_ne (hne : name' ≠ name) (d : Descriptor) :
    (o.defineStored (.string name) d).1.stored? (.string name') = o.stored? (.string name') := by
  unfold defineStored
  split
  · rename_i i hi
    split
    · split
      · rfl
      · exact congrArg (Option.map Prod.snd) (find?_properties_set hne hi _)
    · rfl
  · split
    · exact congrArg (Option.map Prod.snd) (find?_properties_push hne _)
    · rfl

end Object

/-! ## 2. Objects that hold names -/

namespace Object.HoldsNames

variable {o : Object} {name name' : String}

/-- A new object holds names if it is made of values. -/
theorem ofEntries {entries : Array (Key × Property)} (h : ∀ entry ∈ entries, entry.2.isAccessor = false) :
    ({ properties := entries } : Object).HoldsNames :=
  ⟨rfl, rfl, rfl, h⟩

section

variable (h : o.HoldsNames)

include h

theorem text? : o.text? = none := by
  simp only [Object.text?, h.primitive]

theorem virtual? (name : String) : o.virtual? name = none := by
  simp only [Object.virtual?, h.elements, h.text?]

/-- A name is a stored property. -/
theorem own? (name : String) : o.own? (.string name) = o.stored? (.string name) := by
  simp only [Object.own?, h.virtual?]

theorem isAccessor_own? (hp : o.own? (.string name) = some p) : p.isAccessor = false := by
  rw [h.own?] at hp
  obtain ⟨entry, hentry, rfl⟩ := Option.map_eq_some_iff.mp hp
  exact h.values entry (Array.mem_of_find?_eq_some hentry)

/-- Values in place of the old ones or after them make an object that holds names. -/
theorem withProperties {properties : Array (Key × Property)}
    (hvalues : ∀ entry ∈ properties, entry.2.isAccessor = false) :
    { o with properties := properties }.HoldsNames :=
  ⟨h.prototype, h.elements, h.primitive, hvalues⟩

theorem values_set (i : Nat) (key : Key) (hp : p.isAccessor = false) :
    ∀ entry ∈ o.properties.setIfInBounds i (key, p), entry.2.isAccessor = false := by
  intro entry hentry
  rcases Array.mem_or_eq_of_mem_setIfInBounds hentry with hold | rfl
  · exact h.values entry hold
  · exact hp

theorem values_push (key : Key) (hp : p.isAccessor = false) :
    ∀ entry ∈ o.properties.push (key, p), entry.2.isAccessor = false := by
  intro entry hentry
  rcases Array.mem_push.mp hentry with hold | rfl
  · exact h.values entry hold
  · exact hp

theorem store (key : Key) (hp : p.isAccessor = false) : (o.store key p).HoldsNames := by
  unfold Object.store
  split
  · exact h.withProperties (h.values_set _ key hp)
  · exact h.withProperties (h.values_push key hp)

/-- To set a name is to store it. -/
theorem insertValue_eq (name : String) (v : Value) : o.insertValue name v = o.store (.string name) (.ordinary v) := by
  simp only [Object.insertValue, Object.insert, h.elements]

theorem insertValue (name : String) (v : Value) : (o.insertValue name v).HoldsNames := by
  rw [h.insertValue_eq]
  exact h.store _ rfl

theorem own?_insertValue_of_ne (hne : name' ≠ name) (v : Value) :
    (o.insertValue name v).own? (.string name') = o.own? (.string name') := by
  rw [(h.insertValue name v).own?, h.own?, h.insertValue_eq]
  exact stored?_store_of_ne hne _

/-- An object goes on holding names when something is declared. -/
theorem declares {f : Object → Object} (hf : Declares f) : (f o).HoldsNames := by
  cases hf with
  | set name v => exact h.insertValue name v
  | add name =>
    dsimp only
    split
    · exact h
    · exact h.insertValue name .undefined

omit h in
/-- A value stays a value if no getter and no setter is named. -/
theorem isAccessor_overlay (hp : p.isAccessor = false) (hd : d.isAccessor = false) :
    (p.overlay d).isAccessor = false := by
  obtain ⟨content, enumerable, configurable⟩ := p
  cases content with
  | data value writable => simp [Property.overlay, Property.isAccessor, hd]
  | accessor getter setter => cases hp

omit h in
theorem isAccessor_complete (hd : d.isAccessor = false) : d.complete.isAccessor = false := by
  simp [Descriptor.complete, Property.isAccessor, hd]

theorem defineStored (key : Key) (hd : d.isAccessor = false) : (o.defineStored key d).1.HoldsNames := by
  unfold Object.defineStored
  split
  · split
    · rename_i i hi k current hcurrent
      split
      · exact h
      · have hold : current.isAccessor = false := h.values _ (Array.mem_of_getElem? hcurrent)
        exact h.withProperties (h.values_set _ key (isAccessor_overlay hold hd))
    · exact h
  · split
    · exact h.withProperties (h.values_push key (isAccessor_complete hd))
    · exact h

/-- To define a name is to define a stored property. -/
theorem define_eq (name : String) (d : Descriptor) : o.define (.string name) d = o.defineStored (.string name) d := by
  simp only [Object.define, h.elements, Object.defineNamed, h.text?]

theorem define (name : String) (hd : d.isAccessor = false) : (o.define (.string name) d).1.HoldsNames := by
  rw [h.define_eq]
  exact h.defineStored _ hd

theorem own?_define_of_ne (hne : name' ≠ name) (hd : d.isAccessor = false) :
    (o.define (.string name) d).1.own? (.string name') = o.own? (.string name') := by
  rw [(h.define name hd).own?, h.own?, h.define_eq]
  exact stored?_defineStored_of_ne hne d

end

end Object.HoldsNames

end GuestScript

namespace GuestScript

namespace State

variable {s : State} {key : Key} {p : Property}

/-! ## 3. The bound of a lookup -/

theorem lookupFrom_succ (s : State) (key : Key) (fuel : Nat) (id : ObjectId) :
    s.lookupFrom key (fuel + 1) id =
      match (s.objectAt id).own? key with
      | some p => some p
      | none =>
        match (s.objectAt id).prototype with
        | some parent => s.lookupFrom key fuel parent
        | none => none := rfl

/-- What was found stays found with a larger bound. -/
theorem lookupFrom_mono : ∀ {fuel fuel' : Nat} {id : ObjectId}, fuel ≤ fuel' →
    s.lookupFrom key fuel id = some p → s.lookupFrom key fuel' id = some p
  | 0, _, _, _, h => nomatch h
  | fuel + 1, fuel' + 1, id, hle, h => by
    rw [lookupFrom_succ] at h ⊢
    cases hown : (s.objectAt id).own? key with
    | some q =>
      rw [hown] at h
      exact h
    | none =>
      rw [hown] at h
      cases hparent : (s.objectAt id).prototype with
      | none =>
        rw [hparent] at h
        cases h
      | some parent =>
        rw [hparent] at h
        exact lookupFrom_mono (Nat.le_of_succ_le_succ hle) h

/-- Whether a property is found with a bound of `depth + 1`, and with no smaller one. -/
def FoundAt (s : State) (key : Key) (p : Property) (depth : Nat) (id : ObjectId) : Prop :=
  s.lookupFrom key depth id = none ∧ s.lookupFrom key (depth + 1) id = some p

/-- An object is at one depth only. -/
theorem FoundAt.unique {depth depth' : Nat} {id : ObjectId} (h : s.FoundAt key p depth id)
    (h' : s.FoundAt key p depth' id) : depth = depth' := by
  rcases Nat.lt_trichotomy depth depth' with hlt | heq | hlt
  · have hfound := lookupFrom_mono hlt h.2
    rw [h'.1] at hfound
    cases hfound
  · exact heq
  · have hfound := lookupFrom_mono hlt h'.2
    rw [h.1] at hfound
    cases hfound

theorem own?_default (key : Key) : (default : Object).own? key = none := by
  cases key <;> rfl

/-- What is found is found on the heap. -/
theorem index_lt_of_lookupFrom {fuel : Nat} {id : ObjectId} (h : s.lookupFrom key fuel id = some p) :
    id.index < s.heap.size := by
  by_contra hle
  cases fuel with
  | zero => cases h
  | succ fuel =>
    rw [lookupFrom_succ, objectAt_of_size_le (Nat.le_of_not_lt hle), own?_default] at h
    cases h

/-- On the way to a property there is an object at every depth. -/
theorem FoundAt.exists_at : ∀ {depth : Nat} {id : ObjectId}, s.FoundAt key p depth id → ∀ k ≤ depth,
    ∃ a : ObjectId, a.index < s.heap.size ∧ s.FoundAt key p k a
  | depth, id, h, k, hk => by
    rcases Nat.eq_or_lt_of_le hk with rfl | hlt
    · exact ⟨id, index_lt_of_lookupFrom h.2, h⟩
    cases depth with
    | zero => omega
    | succ depth =>
      obtain ⟨hnone, hsome⟩ := h
      rw [lookupFrom_succ] at hnone hsome
      cases hown : (s.objectAt id).own? key with
      | some q =>
        rw [hown] at hnone
        cases hnone
      | none =>
        rw [hown] at hnone hsome
        cases hparent : (s.objectAt id).prototype with
        | none =>
          rw [hparent] at hsome
          cases hsome
        | some parent =>
          rw [hparent] at hnone hsome
          exact exists_at ⟨hnone, hsome⟩ k (Nat.le_of_lt_succ hlt)

/-- No property is deeper than there are objects. -/
theorem FoundAt.lt_size {depth : Nat} {id : ObjectId} (h : s.FoundAt key p depth id) : depth < s.heap.size := by
  choose a hlt ha using fun k : Fin (depth + 1) => h.exists_at k (Nat.le_of_lt_succ k.isLt)
  let place : Fin (depth + 1) → Fin s.heap.size := fun k => ⟨(a k).index, hlt k⟩
  have hplace : Function.Injective place := by
    intro i j hij
    have hsame : a i = a j := by
      have hindex : (a i).index = (a j).index := congrArg Fin.val hij
      cases hi : a i
      cases hj : a j
      simp_all
    exact Fin.ext (FoundAt.unique (ha i) (hsame ▸ ha j))
  have hcard := Fintype.card_le_of_injective place hplace
  rw [Fintype.card_fin, Fintype.card_fin] at hcard
  omega

/-- A bound that every object fits under finds all that a larger one finds. -/
theorem lookupFrom_of_size_le {fuel : Nat} (hfuel : s.heap.size ≤ fuel) (id : ObjectId) :
    ∀ extra, s.lookupFrom key (fuel + extra) id = s.lookupFrom key fuel id
  | 0 => rfl
  | extra + 1 => by
    rw [← lookupFrom_of_size_le hfuel id extra]
    cases hsmall : s.lookupFrom key (fuel + extra) id with
    | some p => exact lookupFrom_mono (Nat.le_succ _) hsmall
    | none =>
      cases hlarge : s.lookupFrom key (fuel + extra + 1) id with
      | none => rfl
      | some p =>
        have hlt := FoundAt.lt_size ⟨hsmall, hlarge⟩
        omega

/-- Any bound that is large enough will do for a lookup. -/
theorem lookup?_eq {fuel : Nat} (hfuel : s.heap.size + 1 ≤ fuel) (id : ObjectId) (key : Key) :
    s.lookup? id key = s.lookupFrom key fuel id := by
  obtain ⟨extra, rfl⟩ := Nat.exists_eq_add_of_le hfuel
  exact (lookupFrom_of_size_le (Nat.le_succ _) id extra).symm

end State

/-! ## 4. Scopes and registers -/

namespace Scope

variable {e : Embedding}

@[simp] theorem data_image (s : Scope) : (image e s).data = e.object s.data := rfl
@[simp] theorem parent_image (s : Scope) : (image e s).parent = image e s.parent := rfl
@[simp] theorem kind_image (s : Scope) : (image e s).kind = s.kind := rfl
@[simp] theorem lexical_image (s : Scope) : (image e s).lexical = s.lexical := rfl
@[simp] theorem record?_image (s : Scope) (name : String) : (image e s).record? name = s.record? name := rfl

theorem IsWithin.holds {s : Scope} (hs : s.IsWithin e) : e.Holds s.data := by
  cases hkind : s.kind.ownsNames with
  | true => exact .inr (hs.closed hkind)
  | false => exact .inl (hs.opened hkind)

end Scope

instance : Carried State.Resolution where
  Within e
    | .found scope => e.Solid scope
    | .uninitialized => True
  image e
    | .found scope => .found (image e scope)
    | .uninitialized => .uninitialized

namespace Embedding.Mirrors

variable {e : Embedding} {s s' : State}

section

variable (h : e.Mirrors s s')

include h

theorem current_scope : s'.scope = e.scope s.scope := by
  rw [h.registers]
  rfl

theorem receiver : s'.receiver = image e s.receiver := by
  rw [h.registers]
  rfl

theorem result : s'.result = image e s.result := by
  rw [h.registers]
  rfl

theorem calls : s'.calls = s.calls := by
  rw [h.registers]
  rfl

theorem depth : s'.depth = s.depth := by
  rw [h.registers]
  rfl

theorem newTarget : s'.newTarget = image e s.newTarget := by
  rw [h.registers]
  rfl

theorem joining : s'.joining = image e s.joining := by
  rw [h.registers]
  rfl

/-! ## 5. Along prototypes -/

theorem within_lookupFrom (key : Key) : ∀ (fuel : Nat) {id : ObjectId}, e.Holds id →
    Within e (s.lookupFrom key fuel id)
  | 0, _, _ => within_none
  | fuel + 1, id, hid => by
    have hobject := h.within_object hid
    have hown := Object.within_own? hobject key
    rw [State.lookupFrom_succ]
    cases hfound : (s.objectAt id).own? key with
    | some p =>
      rw [hfound] at hown
      exact hown
    | none =>
      cases hparent : (s.objectAt id).prototype with
      | none => exact within_none
      | some parent => exact within_lookupFrom key fuel (.inl (hobject.prototype parent hparent))

theorem lookupFrom (key : Key) : ∀ (fuel : Nat) {id : ObjectId}, e.Holds id →
    s'.lookupFrom (image e key) fuel (e.object id) = image e (s.lookupFrom key fuel id)
  | 0, _, _ => rfl
  | fuel + 1, id, hid => by
    rw [State.lookupFrom_succ, State.lookupFrom_succ, h.object hid, Object.own?_image, Object.prototype_image]
    cases (s.objectAt id).own? key with
    | some p => rfl
    | none =>
      cases hparent : (s.objectAt id).prototype with
      | none => rfl
      | some parent => exact lookupFrom key fuel (.inl ((h.within_object hid).prototype parent hparent))

theorem within_lookup? {id : ObjectId} (hid : e.Holds id) (key : Key) : Within e (s.lookup? id key) :=
  h.within_lookupFrom key _ hid

theorem lookup? {id : ObjectId} (hid : e.Holds id) (key : Key) :
    s'.lookup? (e.object id) (image e key) = image e (s.lookup? id key) := by
  have hfuel := Nat.le_max_left (s.heap.size + 1) (s'.heap.size + 1)
  have hfuel' := Nat.le_max_right (s.heap.size + 1) (s'.heap.size + 1)
  rw [State.lookup?_eq hfuel, State.lookup?_eq hfuel', h.lookupFrom key _ hid]

theorem hasProperty {id : ObjectId} (hid : e.Holds id) (key : Key) :
    s'.hasProperty (e.object id) (image e key) = s.hasProperty id key := by
  rw [State.hasProperty, h.lookup? hid, isSome_image, State.hasProperty]

theorem within_plainValue {id : ObjectId} (hid : e.Holds id) (name : String) : Within e (s.plainValue id name) := by
  have hfound := h.within_lookup? hid (.string name)
  unfold State.plainValue
  cases hlookup : s.lookup? id (.string name) with
  | none => exact trivial
  | some p =>
    rw [hlookup] at hfound
    exact within_getD (Property.within_value? (within_some.mp hfound)) trivial

theorem plainValue {id : ObjectId} (hid : e.Holds id) (name : String) :
    s'.plainValue (e.object id) name = image e (s.plainValue id name) := by
  have hlookup : s'.lookup? (e.object id) (.string name) = image e (s.lookup? id (.string name)) :=
    h.lookup? hid (.string name)
  unfold State.plainValue
  rw [hlookup]
  cases s.lookup? id (.string name) with
  | none => rfl
  | some p =>
    simp only [image_some, Option.bind_some, Property.value?_image]
    exact getD_image p.value? .undefined

/-- The names of a scope are values. -/
theorem isAccessor_lookup? {id : ObjectId} (hid : e.Closed id) {name : String} {p : Property}
    (hp : s.lookup? id (.string name) = some p) : p.isAccessor = false := by
  have hnames := h.names hid
  rw [State.lookup?, State.lookupFrom_succ, hnames.prototype] at hp
  have hown : (s.objectAt id).own? (.string name) = some p := by
    cases hown : (s.objectAt id).own? (.string name) with
    | some q =>
      rw [hown] at hp
      exact hp
    | none =>
      rw [hown] at hp
      cases hp
  exact hnames.isAccessor_own? hown

theorem onChain {wanted : ObjectId} (hwanted : e.Open wanted) :
    ∀ (fuel : Nat) {id : Option ObjectId}, Within e id →
      s'.onChain (e.object wanted) fuel (image e id) = s.onChain wanted fuel id
  | 0, _, _ => rfl
  | _ + 1, none, _ => rfl
  | fuel + 1, some id, hid => by
    have hopen : e.Open id := within_some.mp hid
    have hsame : e.object id = e.object wanted ↔ id = wanted :=
      ⟨e.object_injective (.inl hopen) (.inl hwanted), congrArg _⟩
    have hrest := onChain hwanted fuel (h.within_object (.inl hopen)).prototype
    rw [image_some, State.onChain, State.onChain, image_objectId, h.object (.inl hopen), Object.prototype_image,
      hrest, decide_eq_decide.mpr hsame]

theorem inheritsFrom {id prototype : ObjectId} (hid : e.Open id) (hprototype : e.Open prototype) :
    s'.inheritsFrom (e.object id) (e.object prototype) = s.inheritsFrom id prototype := by
  have hobject := h.within_object (.inl hid)
  unfold State.inheritsFrom
  rw [h.object (.inl hid)]
  exact h.onChain hprototype _ hobject.prototype

theorem closesCircle {id : ObjectId} (hid : e.Open id) {prototype : Option ObjectId} (hprototype : Within e prototype) :
    s'.closesCircle (e.object id) (image e prototype) = s.closesCircle id prototype := by
  cases prototype with
  | none => rfl
  | some p =>
    have hp : e.Open p := within_some.mp hprototype
    have hsame : e.object p = e.object id ↔ p = id :=
      ⟨e.object_injective (.inl hp) (.inl hid), congrArg _⟩
    simp only [State.closesCircle, image_some, image_objectId, Option.any_some, h.inheritsFrom hp hid,
      decide_eq_decide.mpr hsame]

theorem chainFrom {start : ObjectId} (hstart : e.Open start) :
    ∀ (fuel : Nat) {id : ObjectId}, e.Open id →
      s'.chainFrom (e.object start) fuel (e.object id) = image e (s.chainFrom start fuel id) ∧
        Within e (s.chainFrom start fuel id)
  | 0, _, _ => ⟨rfl, within_none⟩
  | fuel + 1, id, hid => by
    have hlast : Within e (some [id]) := within_some.mpr (within_cons.mpr ⟨hid, within_nil⟩)
    have hobject := h.within_object (.inl hid)
    rw [State.chainFrom_succ, State.chainFrom_succ, h.object (.inl hid), Object.prototype_image]
    cases hparent : (s.objectAt id).prototype with
    | none => exact ⟨rfl, hlast⟩
    | some parent =>
      have hopen : e.Open parent := hobject.prototype parent hparent
      have hsame : e.object parent = e.object start ↔ parent = start :=
        ⟨e.object_injective (.inl hopen) (.inl hstart), congrArg _⟩
      obtain ⟨hrest, hwithin⟩ := chainFrom hstart fuel hopen
      simp only [image_some, image_objectId, hsame, hrest]
      split
      · exact ⟨rfl, hlast⟩
      · generalize s.chainFrom start fuel parent = rest at hwithin
        cases rest with
        | none => exact ⟨rfl, within_none⟩
        | some ids => exact ⟨rfl, within_some.mpr (within_cons.mpr ⟨hid, within_some.mp hwithin⟩)⟩

theorem chain? {id : ObjectId} (hid : e.Open id) :
    s'.chain? (e.object id) = image e (s.chain? id) ∧ Within e (s.chain? id) := by
  have hboth := h.chainFrom hid (s.heap.size + s'.heap.size + 1) hid
  rwa [State.chainFrom_of_size_lt (by omega), State.chainFrom_of_size_lt (by omega)] at hboth

theorem enumerableNames? {id : ObjectId} (hid : e.Open id) :
    s'.enumerableNames? (e.object id) = s.enumerableNames? id := by
  obtain ⟨hchain, hwithin⟩ := h.chain? hid
  unfold State.enumerableNames?
  rw [hchain]
  generalize s.chain? id = ids at hwithin
  cases ids with
  | none => rfl
  | some ids =>
    have hlisted : ∀ id ∈ ids, (s'.objectAt (image e id)).listedNames = (s.objectAt id).listedNames := by
      intro id hmem
      rw [image_objectId, h.object (.inl (within_some.mp hwithin id hmem)), Object.listedNames_image]
    simp only [image_some, image_list, Option.map_some, List.flatMap_map]
    rw [List.flatMap_congr hlisted]

theorem display {v : Value} (hv : Within e v) : s'.display (image e v) = s.display v := by
  cases v with
  | object id =>
    change (s'.objectAt (e.object id)).summary = (s.objectAt id).summary
    rw [h.object (.inl hv), Object.summary_image]
  | symbol symbol => exact Symbol.text_image symbol
  | _ => rfl

/-! ## 6. Along scopes -/

theorem holds_data {id : ScopeId} (hid : e.Solid id) : e.Holds (s.scopeAt id).data :=
  (h.within_scope hid).holds

theorem holds {id : ScopeId} (hid : e.Solid id) (name : String) :
    s'.holds (s'.scopeAt (e.scope id)) name = s.holds (s.scopeAt id) name := by
  have hdata := h.holds_data hid
  have hproperty : s'.hasProperty (e.object (s.scopeAt id).data) (.string name) =
      s.hasProperty (s.scopeAt id).data (.string name) := h.hasProperty hdata (.string name)
  have hown : (s'.objectAt (e.object (s.scopeAt id).data)).hasOwn (.string name) =
      (s.objectAt (s.scopeAt id).data).hasOwn (.string name) := by
    rw [h.object hdata]
    exact Object.hasOwn_image _ (.string name)
  rw [h.scope hid]
  simp only [State.holds, Scope.kind_image, Scope.data_image, hproperty, hown]

omit h in
theorem solid_none : ∀ scope ∈ (none : Option ScopeId), e.Solid scope :=
  fun _ h => nomatch h

omit h in
theorem solid_getD {o : Option ScopeId} (ho : ∀ scope ∈ o, e.Solid scope) {id : ScopeId} (hid : e.Solid id) :
    e.Solid (o.getD id) := by
  cases o with
  | none => exact hid
  | some scope => exact ho scope rfl

omit h in
/-- A walk along scopes needs no larger bound than the address of the scope it starts in. -/
theorem parent_lt (hs : s.Ordered) {id parent : ScopeId} {fuel : Nat} (hparent : (s.scopeAt id).parent = some parent)
    (hfuel : min id.index s.scopes.size < fuel + 1) : min parent.index s.scopes.size < fuel := by
  have hlt := hs id parent hparent
  have hbound : id.index < s.scopes.size := by
    by_contra hle
    have hdefault : s.scopeAt id = default := by simp [State.scopeAt, Nat.le_of_not_lt hle]
    rw [hdefault] at hparent
    cases hparent
  omega

/-- A walk along scopes goes on from a clear scope to its parent, and finds nothing. -/
theorem resolveFrom_clear {id : ScopeId} (hid : e.Clear id) :
    ∃ parent, (s.scopeAt id).parent = some parent ∧ e.Scoped parent ∧ e.scope id = e.scope parent ∧
      ∀ name access fuel global, s.resolveFrom name access (fuel + 1) id global =
        s.resolveFrom name access fuel parent global := by
  have helides := h.clear hid
  obtain ⟨parent, hparent, hscoped, hsame⟩ := helides.parent
  refine ⟨parent, hparent, hscoped, hsame, fun name access fuel global => ?_⟩
  have hrecord : (s.scopeAt id).record? name = none := by
    rw [Scope.record?, helides.lexical]
    rfl
  have hholds : s.holds (s.scopeAt id) name = false := by
    simp only [State.holds, helides.kind, helides.empty]
  rw [State.resolveFrom]
  simp only [hrecord, hholds, helides.kind, hparent]
  rfl

theorem resolveFrom (name : String) (access : State.Access) :
    ∀ (fuel fuel' : Nat) {id : ScopeId} {global : Option ScopeId}, e.Scoped id → (∀ scope ∈ global, e.Solid scope) →
      min id.index s.scopes.size < fuel → min (e.scope id).index s'.scopes.size < fuel' →
      Within e (s.resolveFrom name access fuel id global) ∧
        s'.resolveFrom name access fuel' (e.scope id) (image e global) =
          image e (s.resolveFrom name access fuel id global)
  | 0, _, _, _, _, _, hfuel, _ => by omega
  | _ + 1, 0, _, _, _, _, _, hfuel' => by omega
  | fuel + 1, fuel' + 1, id, global, hid, hglobal, hfuel, hfuel' => by
    by_cases hclear : e.Clear id
    · -- Only the first walk takes a step.
      obtain ⟨parent, hparent, hscoped, hsame, hwalk⟩ := h.resolveFrom_clear hclear
      rw [hwalk]
      rw [hsame] at hfuel' ⊢
      exact resolveFrom name access fuel (fuel' + 1) hscoped hglobal (parent_lt h.ordered hparent hfuel) hfuel'
    have hsolid : e.Solid id := ⟨hid, hclear⟩
    have hholds := h.holds hsolid name
    unfold State.resolveFrom
    simp only [hholds]
    rw [h.scope hsolid]
    simp only [Scope.record?_image, Scope.kind_image, Scope.parent_image]
    cases hrecord : (s.scopeAt id).record? name with
    | some r =>
      dsimp only
      split
      · exact ⟨hsolid, rfl⟩
      · exact ⟨trivial, rfl⟩
    | none =>
      dsimp only
      split
      · exact ⟨hsolid, rfl⟩
      · have hglobal' : ∀ scope ∈ (if (s.scopeAt id).kind = .global && global.isNone then some id else global),
            e.Solid scope := by
          split
          · rintro scope ⟨⟩
            exact hsolid
          · exact hglobal
        have himage : (if (s.scopeAt id).kind = .global && (image e global).isNone then some (e.scope id)
            else image e global) =
              image e (if (s.scopeAt id).kind = .global && global.isNone then some id else global) := by
          rw [isNone_image]
          split <;> rfl
        rw [himage]
        cases hparent : (s.scopeAt id).parent with
        | none => exact ⟨solid_getD hglobal' hsolid, congrArg _ (getD_image _ id)⟩
        | some parent =>
          have hparent' : (s'.scopeAt (e.scope id)).parent = some (e.scope parent) := by
            rw [h.scope hsolid, Scope.parent_image, hparent]
            rfl
          exact resolveFrom name access fuel fuel' ((h.within_scope hsolid).parent parent hparent) hglobal'
            (parent_lt h.ordered hparent hfuel) (parent_lt h.ordered' hparent' hfuel')

theorem within_resolve (name : String) (access : State.Access) : Within e (s.resolve name access) :=
  (h.resolveFrom name access _ (s'.scopes.size + 1) h.within_registers.1 solid_none (by omega) (by omega)).1

theorem resolve (name : String) (access : State.Access) : s'.resolve name access = image e (s.resolve name access) := by
  unfold State.resolve
  rw [h.current_scope]
  exact (h.resolveFrom name access _ _ h.within_registers.1 solid_none (by omega) (by omega)).2

theorem variableScopeFrom_clear {id : ScopeId} (hid : e.Clear id) :
    ∃ parent, (s.scopeAt id).parent = some parent ∧ e.Scoped parent ∧ e.scope id = e.scope parent ∧
      ∀ fuel, s.variableScopeFrom (fuel + 1) id = s.variableScopeFrom fuel parent := by
  have helides := h.clear hid
  obtain ⟨parent, hparent, hscoped, hsame⟩ := helides.parent
  refine ⟨parent, hparent, hscoped, hsame, fun fuel => ?_⟩
  rw [State.variableScopeFrom]
  simp only [helides.kind, hparent]
  rfl

theorem variableScopeFrom : ∀ (fuel fuel' : Nat) {id : ScopeId}, e.Scoped id →
    min id.index s.scopes.size < fuel → min (e.scope id).index s'.scopes.size < fuel' →
    e.Solid (s.variableScopeFrom fuel id) ∧
      s'.variableScopeFrom fuel' (e.scope id) = e.scope (s.variableScopeFrom fuel id)
  | 0, _, _, _, hfuel, _ => by omega
  | _ + 1, 0, _, _, _, hfuel' => by omega
  | fuel + 1, fuel' + 1, id, hid, hfuel, hfuel' => by
    by_cases hclear : e.Clear id
    · obtain ⟨parent, hparent, hscoped, hsame, hwalk⟩ := h.variableScopeFrom_clear hclear
      rw [hwalk]
      rw [hsame] at hfuel' ⊢
      exact variableScopeFrom fuel (fuel' + 1) hscoped (parent_lt h.ordered hparent hfuel) hfuel'
    have hsolid : e.Solid id := ⟨hid, hclear⟩
    unfold State.variableScopeFrom
    rw [h.scope hsolid]
    simp only [Scope.kind_image, Scope.parent_image]
    split
    · exact ⟨hsolid, rfl⟩
    · cases hparent : (s.scopeAt id).parent with
      | none => exact ⟨hsolid, rfl⟩
      | some parent =>
        have hparent' : (s'.scopeAt (e.scope id)).parent = some (e.scope parent) := by
          rw [h.scope hsolid, Scope.parent_image, hparent]
          rfl
        exact variableScopeFrom fuel fuel' ((h.within_scope hsolid).parent parent hparent)
          (parent_lt h.ordered hparent hfuel) (parent_lt h.ordered' hparent' hfuel')

theorem solid_variableScope : e.Solid s.variableScope :=
  (h.variableScopeFrom _ (s'.scopes.size + 1) h.within_registers.1 (by omega) (by omega)).1

theorem variableScope : s'.variableScope = e.scope s.variableScope := by
  unfold State.variableScope
  rw [h.current_scope]
  exact (h.variableScopeFrom _ _ h.within_registers.1 (by omega) (by omega)).2

end

end Embedding.Mirrors

end GuestScript
