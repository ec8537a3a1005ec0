import GuestScript.Object.Basic
import GuestScript.Proofs.Identity

/-!
# Ordinary objects

An *ordinary* object has stored properties only: it is no array and wraps no string. This module says what
defining and deleting properties does to one.

* `Descriptor.Overlays` says field by field what a descriptor makes of a property, or of none.
* `Change.Allowed` says when an object takes a change, and `Change.Effect` what the change does: it is seen at
  its key and nowhere else.
* `Property.Keeps` is what becomes of a property that is not configurable: its kind, its enumerability, its
  getter and its setter stay, and so does a value that is read-only.

The main statement, `Object.answers_changes`, is about every object that any sequence of changes leads to.
-/

namespace GuestScript

variable {d : Descriptor} {p : Property} {entries : List (Key × Property)} {c : Change}

/-! ## 1. Fields of properties -/

namespace Property

/-- The getter of an accessor. -/
def getter? (p : Property) : Option Value :=
  match p.content with
  | .accessor getter _ => some getter
  | .data _ _ => none

/-- The setter of an accessor. -/
def setter? (p : Property) : Option Value :=
  match p.content with
  | .accessor _ setter => some setter
  | .data _ _ => none

end Property

namespace Descriptor

/-- Whether the fields of a descriptor belong to one kind of properties. -/
def IsProper (d : Descriptor) : Prop :=
  ¬(d.isData = true ∧ d.isAccessor = true)

/-- What a descriptor makes of a property, or of none: each field that is named is as it says, and each other one
is as it was, or `undefined` or `false` where there was none. The fields of the other kind are gone. -/
structure Overlays (d : Descriptor) (before : Option Property) (after : Property) : Prop where
  enumerable : after.enumerable = d.enumerable.getD (before.any Property.enumerable)
  configurable : after.configurable = d.configurable.getD (before.any Property.configurable)
  kind : after.isAccessor = (d.isAccessor || (before.any Property.isAccessor && !d.isData))
  value : after.isAccessor = false →
    after.value? = some (d.value.getD ((before.bind Property.value?).getD .undefined))
  writable : after.isAccessor = false → after.isWritable = d.writable.getD (before.any Property.isWritable)
  getter : after.isAccessor = true →
    after.getter? = some (d.getter.getD ((before.bind Property.getter?).getD .undefined))
  setter : after.isAccessor = true →
    after.setter? = some (d.setter.getD ((before.bind Property.setter?).getD .undefined))

theorem overlays_complete (d : Descriptor) : d.Overlays none d.complete := by
  cases h : d.isAccessor <;> constructor <;>
    simp [complete, h, Property.isAccessor, Property.value?, Property.isWritable, Property.getter?, Property.setter?]

theorem overlays_overlay (hd : d.IsProper) (p : Property) : d.Overlays (some p) (p.overlay d) := by
  obtain ⟨content, enumerable, configurable⟩ := p
  cases content with
  | data value writable =>
    cases h : d.isAccessor <;> constructor <;>
      simp [Property.overlay, h, Property.isAccessor, Property.value?, Property.isWritable, Property.getter?,
        Property.setter?]
  | accessor getter setter =>
    cases h : d.isData with
    | false =>
      constructor <;>
        simp [Property.overlay, h, Property.isAccessor, Property.value?, Property.isWritable, Property.getter?,
          Property.setter?]
    | true =>
      have hkind : d.isAccessor = false := by simpa [IsProper, h] using hd
      constructor <;>
        simp [Property.overlay, h, hkind, Property.isAccessor, Property.value?, Property.isWritable,
          Property.getter?, Property.setter?]

end Descriptor

/-! ## 2. Properties that are not configurable -/

namespace Property

/-- What becomes of a property that is not configurable. -/
structure Keeps (p q : Property) : Prop where
  configurable : q.configurable = false
  enumerable : q.enumerable = p.enumerable
  kind : q.isAccessor = p.isAccessor
  readOnly : p.isAccessor = false → p.isWritable = false → q.isWritable = false
  value : p.isWritable = false → ∀ v, p.value? = some v → ∃ w, q.value? = some w ∧ w.sameValue v = true
  getter : ∀ v, p.getter? = some v → ∃ w, q.getter? = some w ∧ w.sameValue v = true
  setter : ∀ v, p.setter? = some v → ∃ w, q.setter? = some w ∧ w.sameValue v = true

theorem keeps_refl (h : p.configurable = false) : p.Keeps p :=
  { configurable := h
    enumerable := rfl
    kind := rfl
    readOnly := fun _ hp => hp
    value := fun _ v hv => ⟨v, hv, v.sameValue_self⟩
    getter := fun v hv => ⟨v, hv, v.sameValue_self⟩
    setter := fun v hv => ⟨v, hv, v.sameValue_self⟩ }

theorem isAccessor_of_value? {v : Value} (h : p.value? = some v) : p.isAccessor = false := by
  unfold value? at h
  unfold isAccessor
  split at h <;> simp_all

theorem Keeps.trans {q r : Property} (hpq : p.Keeps q) (hqr : q.Keeps r) : p.Keeps r where
  configurable := hqr.configurable
  enumerable := hqr.enumerable.trans hpq.enumerable
  kind := hqr.kind.trans hpq.kind
  readOnly ha hw := hqr.readOnly (hpq.kind.trans ha) (hpq.readOnly ha hw)
  value hw v hv := by
    obtain ⟨w, hq, hwv⟩ := hpq.value hw v hv
    obtain ⟨x, hr, hxw⟩ := hqr.value (hpq.readOnly (isAccessor_of_value? hv) hw) w hq
    exact ⟨x, hr, Value.sameValue_trans hxw hwv⟩
  getter v hv := by
    obtain ⟨w, hq, hwv⟩ := hpq.getter v hv
    obtain ⟨x, hr, hxw⟩ := hqr.getter w hq
    exact ⟨x, hr, Value.sameValue_trans hxw hwv⟩
  setter v hv := by
    obtain ⟨w, hq, hwv⟩ := hpq.setter v hv
    obtain ⟨x, hr, hxw⟩ := hqr.setter w hq
    exact ⟨x, hr, Value.sameValue_trans hxw hwv⟩

theorem sameValue_getD {field : Option Value} {v : Value} (h : agrees field v = true) :
    (field.getD v).sameValue v = true := by
  cases field with
  | none => exact v.sameValue_self
  | some w => exact h

/-- A change that a property admits leaves what has to stay. -/
theorem keeps_of_overlays {q : Property} (hp : p.configurable = false) (h : p.admits d = true)
    (hq : d.Overlays (some p) q) : p.Keeps q := by
  obtain ⟨content, enumerable, configurable⟩ := p
  obtain rfl : configurable = false := hp
  simp only [admits, Bool.and_eq_true, bne_iff_ne, ne_eq] at h
  obtain ⟨⟨hconf, henum⟩, hcontent⟩ := h
  have hconf' : q.configurable = false := by
    rw [hq.configurable]
    cases hc : d.configurable with
    | none => rfl
    | some b => cases b <;> simp_all
  have henum' : q.enumerable = enumerable := by
    rw [hq.enumerable]
    cases he : d.enumerable with
    | none => rfl
    | some b => simpa [he] using henum
  cases content with
  | data value writable =>
    simp only [Bool.and_eq_true, Bool.not_eq_true', Bool.or_eq_true, bne_iff_ne, ne_eq] at hcontent
    obtain ⟨hkind, hwrite⟩ := hcontent
    have hdata : q.isAccessor = false := by
      rw [hq.kind, hkind]
      rfl
    refine ⟨hconf', henum', hdata, fun _ hw => ?_, fun hw v hv => ?_, by simp [getter?], by simp [setter?]⟩
    · obtain rfl : writable = false := hw
      have hw := (hwrite.resolve_left Bool.false_ne_true).1
      rw [hq.writable hdata]
      cases hd : d.writable with
      | none => rfl
      | some b => cases b <;> simp_all
    · obtain rfl : writable = false := hw
      obtain rfl : value = v := by simpa [value?] using hv
      exact ⟨_, hq.value hdata, sameValue_getD (hwrite.resolve_left Bool.false_ne_true).2⟩
  | accessor getter setter =>
    simp only [Bool.and_eq_true, Bool.not_eq_true'] at hcontent
    obtain ⟨⟨hkind, hget⟩, hset⟩ := hcontent
    have haccessor : q.isAccessor = true := by
      rw [hq.kind, hkind]
      simp [isAccessor]
    refine ⟨hconf', henum', haccessor, by simp [isAccessor], by simp [value?], fun v hv => ?_, fun v hv => ?_⟩
    · obtain rfl : getter = v := by simpa [getter?] using hv
      exact ⟨_, hq.getter haccessor, sameValue_getD hget⟩
    · obtain rfl : setter = v := by simpa [setter?] using hv
      exact ⟨_, hq.setter haccessor, sameValue_getD hset⟩

end Property

namespace Object

/-! ## 3. Stored properties -/

/-- Whether no two stored properties have the same key. -/
def Distinct (o : Object) : Prop :=
  o.properties.toList.Pairwise fun a b => a.1.same b.1 = false

/-- The property that a list of entries has for a key. -/
def under? (entries : List (Key × Property)) (key : Key) : Option Property :=
  (entries.find? fun e => e.1.same key).map Prod.snd

theorem stored?_eq (o : Object) (key : Key) : o.stored? key = under? o.properties.toList key := by
  rw [stored?, under?, Array.find?_toList]

theorem under?_append (front back : List (Key × Property)) (key : Key) :
    under? (front ++ back) key = (under? front key).or (under? back key) := by
  rw [under?, List.find?_append, under?, under?]
  cases List.find? (fun e => e.1.same key) front <;> rfl

theorem under?_cons (e : Key × Property) (rest : List (Key × Property)) (key : Key) :
    under? (e :: rest) key = if e.1.same key then some e.2 else under? rest key := by
  rw [under?, List.find?_cons]
  cases e.1.same key <;> rfl

theorem under?_eq_none {key : Key} (h : ∀ e ∈ entries, e.1.same key = false) : under? entries key = none := by
  have hfind : entries.find? (fun e => e.1.same key) = none :=
    List.find?_eq_none.2 fun e he => by simp [h e he]
  rw [under?, hfind, Option.map_none]

theorem under?_congr {a b : Key} (h : a.same b = true) (entries : List (Key × Property)) :
    under? entries a = under? entries b := by
  have hsame : (fun e : Key × Property => e.1.same a) = fun e => e.1.same b := by
    funext e
    rw [Key.same_comm, Key.same_congr h, Key.same_comm]
  rw [under?, under?, hsame]

section Split

variable {front back : List (Key × Property)} {e : Key × Property} {key : Key}

theorem under?_here (he : e.1.same key = true) (hfront : ∀ x ∈ front, x.1.same key = false) :
    under? (front ++ e :: back) key = some e.2 := by
  rw [under?_append, under?_eq_none hfront, under?_cons, he]
  rfl

theorem under?_elsewhere (he : e.1.same key = false) :
    under? (front ++ e :: back) key = under? (front ++ back) key := by
  rw [under?_append, under?_append, under?_cons, he]
  rfl

theorem under?_added (hnone : ∀ e ∈ entries, e.1.same key = false) (p : Property) (key' : Key) :
    under? (entries ++ [(key, p)]) key' = if key.same key' then some p else under? entries key' := by
  rw [under?_append, under?_cons]
  split
  · rename_i hsame
    rw [← under?_congr hsame, under?_eq_none hnone]
    rfl
  · exact Option.or_none

theorem under?_replaced (he : e.1.same key = true) (hfront : ∀ x ∈ front, x.1.same key = false) (p : Property)
    (key' : Key) :
    under? (front ++ (key, p) :: back) key' = if key.same key' then some p else under? (front ++ e :: back) key' := by
  split
  · rename_i hsame
    rw [← under?_congr hsame, under?_here key.same_self hfront]
  · rename_i hother
    rw [Bool.not_eq_true] at hother
    rw [under?_elsewhere hother, under?_elsewhere ((Key.same_congr he _).trans hother)]

/-- An entry's key is not the key of any other entry. -/
theorem same_of_distinct (h : (front ++ e :: back).Pairwise fun a b => a.1.same b.1 = false)
    (he : e.1.same key = true) :
    (∀ x ∈ front, x.1.same key = false) ∧ (∀ x ∈ back, key.same x.1 = false) ∧
      (front ++ back).Pairwise fun a b => a.1.same b.1 = false := by
  rw [List.pairwise_append, List.pairwise_cons] at h
  obtain ⟨hfront, ⟨hback, hrest⟩, hcross⟩ := h
  refine ⟨fun x hx => ?_, fun x hx => ?_, List.pairwise_append.2 ⟨hfront, hrest, fun x hx y hy => ?_⟩⟩
  · rw [Key.same_comm, ← Key.same_congr he, Key.same_comm]
    exact hcross x hx e List.mem_cons_self
  · rw [← Key.same_congr he]
    exact hback x hx
  · exact hcross x hx y (List.mem_cons_of_mem e hy)

end Split

/-- Where a key is stored: nowhere, or at one place, with a part in front of it that does not hold the key. -/
theorem find?_cases (o : Object) (key : Key) :
    (o.find? key = none ∧ ∀ e ∈ o.properties.toList, e.1.same key = false) ∨
    ∃ front e back, o.properties.toList = front ++ e :: back ∧ o.find? key = some front.length ∧
      e.1.same key = true ∧ ∀ x ∈ front, x.1.same key = false := by
  have hlist : o.find? key = o.properties.toList.findIdx? fun e => e.1.same key := by
    obtain ⟨⟨entries⟩⟩ := o
    exact List.findIdx?_toArray _ _
  rw [hlist]
  cases h : o.properties.toList.findIdx? fun e => e.1.same key with
  | none => exact .inl ⟨rfl, fun e he => List.findIdx?_eq_none_iff.1 h e he⟩
  | some i =>
    obtain ⟨hi, hkey, hfront⟩ := List.findIdx?_eq_some_iff_getElem.1 h
    refine .inr ⟨o.properties.toList.take i, o.properties.toList[i], o.properties.toList.drop (i + 1),
      ?_, by simpa using hi.le, hkey, fun x hx => ?_⟩
    · rw [List.getElem_cons_drop, List.take_append_drop]
    · obtain ⟨j, hj, rfl⟩ := List.mem_take_iff_getElem.1 hx
      simpa using hfront j (by omega)

/-- The places of an array after one of them has got something else. -/
theorem toList_setIfInBounds_split {α : Type} {places : Array α} {front back : List α} {old : α}
    (h : places.toList = front ++ old :: back) (new : α) :
    (places.setIfInBounds front.length new).toList = front ++ new :: back := by
  rw [Array.toList_setIfInBounds, h, List.set_append_right _ _ (Nat.le_refl _), Nat.sub_self, List.set_cons_zero]

theorem getElem?_split {o : Object} {front back : List (Key × Property)} {e : Key × Property}
    (h : o.properties.toList = front ++ e :: back) : o.properties[front.length]? = some e := by
  rw [← Array.getElem?_toList, h, List.getElem?_append_right (Nat.le_refl _), Nat.sub_self, List.getElem?_cons_zero]

/-- All that storing a property can do. -/
theorem store_cases (o : Object) (key : Key) (p : Property) :
    ((∀ e ∈ o.properties.toList, e.1.same key = false) ∧
      o.store key p = { o with properties := ⟨o.properties.toList ++ [(key, p)]⟩ }) ∨
    ∃ front e back, o.properties.toList = front ++ e :: back ∧ e.1.same key = true ∧
      (∀ x ∈ front, x.1.same key = false) ∧ o.store key p = { o with properties := ⟨front ++ (key, p) :: back⟩ } := by
  rcases o.find?_cases key with ⟨hfind, hnone⟩ | ⟨front, e, back, hsplit, hfind, hkey, hfront⟩
  · refine .inl ⟨hnone, ?_⟩
    simp only [store, hfind]
    congr 1
    exact Array.ext' Array.toList_push
  · refine .inr ⟨front, e, back, hsplit, hkey, hfront, ?_⟩
    have hset : o.properties.setIfInBounds front.length (key, p) = ⟨front ++ (key, p) :: back⟩ :=
      Array.ext' (toList_setIfInBounds_split hsplit _)
    simp only [store, hfind, hset]

theorem stored?_store (o : Object) (key key' : Key) (p : Property) :
    (o.store key p).stored? key' = if key.same key' then some p else o.stored? key' := by
  rw [stored?_eq, stored?_eq]
  rcases o.store_cases key p with ⟨hnone, hstore⟩ | ⟨front, e, back, hsplit, hkey, hfront, hstore⟩
  · rw [hstore, under?_added hnone]
  · rw [hstore, hsplit, under?_replaced hkey hfront]

/-- All that defining a stored property can do. -/
theorem defineStored_cases (o : Object) (key : Key) (d : Descriptor) :
    ((∀ e ∈ o.properties.toList, e.1.same key = false) ∧
      o.defineStored key d =
        if o.extensible then ({ o with properties := o.properties.push (key, d.complete) }, true) else (o, false)) ∨
    ∃ front e back, o.properties.toList = front ++ e :: back ∧ e.1.same key = true ∧
      (∀ x ∈ front, x.1.same key = false) ∧
      o.defineStored key d =
        if !e.2.configurable && !e.2.admits d then (o, false)
        else ({ o with properties := ⟨front ++ (key, e.2.overlay d) :: back⟩ }, true) := by
  rcases o.find?_cases key with ⟨hfind, hnone⟩ | ⟨front, e, back, hsplit, hfind, hkey, hfront⟩
  · exact .inl ⟨hnone, by rw [defineStored, hfind]⟩
  · refine .inr ⟨front, e, back, hsplit, hkey, hfront, ?_⟩
    have hset : o.properties.setIfInBounds front.length (key, e.2.overlay d) =
        ⟨front ++ (key, e.2.overlay d) :: back⟩ := Array.ext' (toList_setIfInBounds_split hsplit _)
    simp only [defineStored, hfind, getElem?_split hsplit, hset]

/-- Defining a stored property stores what the descriptor makes of the one that is there. -/
theorem defineStored_eq (o : Object) (key : Key) (d : Descriptor) :
    o.defineStored key d =
      match o.stored? key with
      | some current =>
        if !current.configurable && !current.admits d then (o, false) else (o.store key (current.overlay d), true)
      | none => if o.extensible then (o.store key d.complete, true) else (o, false) := by
  rw [stored?_eq]
  rcases o.find?_cases key with ⟨hfind, hnone⟩ | ⟨front, e, back, hsplit, hfind, hkey, hfront⟩
  · simp only [defineStored, store, hfind, under?_eq_none hnone]
  · simp only [defineStored, store, hfind, getElem?_split hsplit, hsplit, under?_here hkey hfront]

/-- All that deleting a stored property can do. -/
theorem deleteStored_cases (o : Object) (key : Key) :
    ((∀ e ∈ o.properties.toList, e.1.same key = false) ∧ o.deleteStored key = (o, true)) ∨
    ∃ front e back, o.properties.toList = front ++ e :: back ∧ e.1.same key = true ∧
      (∀ x ∈ front, x.1.same key = false) ∧
      o.deleteStored key =
        if e.2.configurable then ({ o with properties := ⟨front ++ back⟩ }, true) else (o, false) := by
  rcases o.find?_cases key with ⟨hfind, hnone⟩ | ⟨front, e, back, hsplit, hfind, hkey, hfront⟩
  · exact .inl ⟨hnone, by rw [deleteStored, hfind]⟩
  · refine .inr ⟨front, e, back, hsplit, hkey, hfront, ?_⟩
    have herase : o.properties.eraseIdxIfInBounds front.length = ⟨front ++ back⟩ := by
      apply Array.ext'
      rw [Array.toList_eraseIdxIfInBounds, hsplit, List.eraseIdx_append_of_length_le (Nat.le_refl _),
        Nat.sub_self]
      rfl
    simp only [deleteStored, hfind, getElem?_split hsplit, herase]

/-! ## 4. Changes -/

/-- A change of an object's properties. -/
inductive Change where
  | define (key : Key) (d : Descriptor)
  | delete (key : Key)

namespace Change

/-- The key that a change is about. -/
def key : Change → Key
  | define key _ => key
  | delete key => key

/-- Whether a change that defines a property names fields of one kind only. -/
def IsProper : Change → Prop
  | define _ d => d.IsProper
  | delete _ => True

/-- Whether an object takes a change: a new property needs an object that is open, and a property that is not
configurable takes what it admits and stays. -/
def Allowed (o : Object) : Change → Prop
  | define key d =>
    match o.own? key with
    | none => o.extensible = true
    | some p => p.configurable = true ∨ p.admits d = true
  | delete key => ∀ p, o.own? key = some p → p.configurable = true

/-- What is at the key of a change that was taken: the property as it was defined, or nothing. -/
def Done (before after : Object) : Change → Prop
  | define key d => ∃ p, after.own? key = some p ∧ d.Overlays (before.own? key) p
  | delete key => after.own? key = none

/-- What a change that was taken has done; the other properties and the rest of the object are as before. -/
structure Effect (c : Change) (before after : Object) : Prop where
  here : c.Done before after
  elsewhere : ∀ key, key.same c.key = false → after.own? key = before.own? key
  rest : { after with properties := before.properties } = before

end Change

/-- Make a change, and say whether the object took it. -/
def change (o : Object) : Change → Object × Bool
  | .define key d => o.define key d
  | .delete key => o.delete key

/-- Make changes one after the other. -/
def changeAll (o : Object) (changes : List Change) : Object :=
  changes.foldl (fun o c => (o.change c).1) o

/-- How an object answers a change. -/
structure Answers (o : Object) (c : Change) : Prop where
  taken_iff : (o.change c).2 = true ↔ c.Allowed o
  refused : (o.change c).2 = false → (o.change c).1 = o
  taken : (o.change c).2 = true → c.Effect o (o.change c).1

/-- What changes leave of an object: a closed one gets no new key, and a property that is not configurable stays. -/
structure Preserves (o o' : Object) : Prop where
  extensible : o'.extensible = o.extensible
  closed : o.extensible = false → ∀ key, o.own? key = none → o'.own? key = none
  fixed : ∀ key p, o.own? key = some p → p.configurable = false → ∃ q, o'.own? key = some q ∧ p.Keeps q

/-- An object without virtual properties. -/
structure Ordinary (o : Object) : Prop where
  elements : o.elements = none
  text : o.text? = none
  distinct : o.Distinct

namespace Ordinary

variable {o : Object} (ho : o.Ordinary)
include ho

theorem own?_eq (key : Key) : o.own? key = under? o.properties.toList key := by
  rw [← stored?_eq]
  cases key with
  | symbol s => rfl
  | string name => simp only [own?, virtual?, ho.elements, ho.text]

theorem define_eq (key : Key) (d : Descriptor) : o.define key d = o.defineStored key d := by
  cases key with
  | symbol s => rfl
  | string name => simp only [define, defineNamed, ho.elements, ho.text]

theorem delete_eq (key : Key) : o.delete key = o.deleteStored key := by
  cases key with
  | symbol s => rfl
  | string name => simp only [delete, deleteNamed, ho.elements, ho.text]

/-- The same object with other stored properties. -/
theorem withProperties (h : entries.Pairwise fun a b => a.1.same b.1 = false) :
    Ordinary { o with properties := ⟨entries⟩ } :=
  ⟨ho.elements, ho.text, h⟩

theorem own?_congr {a b : Key} (h : a.same b = true) : o.own? a = o.own? b := by
  rw [ho.own?_eq, ho.own?_eq, under?_congr h]

theorem answers_of_refused (h : o.change c = (o, false)) (hc : ¬c.Allowed o) :
    o.Answers c ∧ (o.change c).1.Ordinary := by
  rw [h]
  exact ⟨⟨by simp [h, hc], by simp [h], by simp [h]⟩, ho⟩

omit ho in
theorem answers_of_taken {o' : Object} (h : o.change c = (o', true)) (hc : c.Allowed o) (heffect : c.Effect o o')
    (ho' : o'.Ordinary) : o.Answers c ∧ (o.change c).1.Ordinary := by
  rw [h]
  exact ⟨⟨by simp [h, hc], by simp [h], fun _ => by rwa [h]⟩, ho'⟩

theorem answers_define (key : Key) (hd : d.IsProper) :
    o.Answers (.define key d) ∧ (o.change (.define key d)).1.Ordinary := by
  have hchange : o.change (.define key d) = o.defineStored key d := ho.define_eq key d
  rcases o.defineStored_cases key d with ⟨hnone, hdefine⟩ | ⟨front, e, back, hsplit, hkey, hfront, hdefine⟩
  · have hown : o.own? key = none := by rw [ho.own?_eq, under?_eq_none hnone]
    rw [hdefine] at hchange
    cases hext : o.extensible with
    | false =>
      rw [if_neg (by simp [hext])] at hchange
      exact ho.answers_of_refused hchange (by simp [Change.Allowed, hown, hext])
    | true =>
      rw [if_pos hext] at hchange
      have hdistinct : (o.properties.toList ++ [(key, d.complete)]).Pairwise fun a b => a.1.same b.1 = false :=
        List.pairwise_append.2 ⟨ho.distinct, List.pairwise_singleton _ _, by simpa using hnone⟩
      have ho' := ho.withProperties hdistinct
      have hpush : o.properties.push (key, d.complete) = ⟨o.properties.toList ++ [(key, d.complete)]⟩ :=
        Array.ext' Array.toList_push
      rw [hpush] at hchange
      refine answers_of_taken hchange (by simp [Change.Allowed, hown, hext]) ⟨?_, fun key' hne => ?_, rfl⟩ ho'
      · refine ⟨d.complete, ?_, hown ▸ d.overlays_complete⟩
        rw [ho'.own?_eq, under?_here (Key.same_self key) hnone]
      · have hne : key.same key' = false := Key.same_comm key' key ▸ hne
        rw [ho'.own?_eq, ho.own?_eq, under?_elsewhere hne, List.append_nil]
  · have hown : o.own? key = some e.2 := by rw [ho.own?_eq, hsplit, under?_here hkey hfront]
    have hentries : (front ++ e :: back).Pairwise fun a b => a.1.same b.1 = false := hsplit ▸ ho.distinct
    obtain ⟨-, hback, hdistinct⟩ := same_of_distinct hentries hkey
    rw [hdefine] at hchange
    by_cases hrefused : (!e.2.configurable && !e.2.admits d) = true
    · rw [if_pos hrefused] at hchange
      refine ho.answers_of_refused hchange ?_
      simpa [Change.Allowed, hown] using hrefused
    · rw [if_neg hrefused] at hchange
      have hdistinct' : (front ++ (key, e.2.overlay d) :: back).Pairwise fun a b => a.1.same b.1 = false := by
        rw [List.pairwise_append] at hdistinct ⊢
        refine ⟨hdistinct.1, List.pairwise_cons.2 ⟨hback, hdistinct.2.1⟩, fun x hx y hy => ?_⟩
        rcases List.mem_cons.1 hy with rfl | hy
        · exact hfront x hx
        · exact hdistinct.2.2 x hx y hy
      have ho' := ho.withProperties hdistinct'
      refine answers_of_taken hchange ?_ ⟨?_, fun key' hne => ?_, rfl⟩ ho'
      · simpa [Change.Allowed, hown, or_iff_not_imp_left] using hrefused
      · refine ⟨e.2.overlay d, ?_, hown ▸ Descriptor.overlays_overlay hd e.2⟩
        rw [ho'.own?_eq, under?_here (Key.same_self key) hfront]
      · have hne : key.same key' = false := Key.same_comm key' key ▸ hne
        have hne' : e.1.same key' = false := Key.same_congr hkey key' ▸ hne
        rw [ho'.own?_eq, ho.own?_eq, hsplit, under?_elsewhere hne, under?_elsewhere hne']

theorem answers_delete (key : Key) :
    o.Answers (.delete key) ∧ (o.change (.delete key)).1.Ordinary := by
  have hchange : o.change (.delete key) = o.deleteStored key := ho.delete_eq key
  rcases o.deleteStored_cases key with ⟨hnone, hdelete⟩ | ⟨front, e, back, hsplit, hkey, hfront, hdelete⟩
  · have hown : o.own? key = none := by rw [ho.own?_eq, under?_eq_none hnone]
    exact answers_of_taken (hchange.trans hdelete) (by simp [Change.Allowed, hown])
      ⟨hown, fun _ _ => rfl, rfl⟩ ho
  · have hown : o.own? key = some e.2 := by rw [ho.own?_eq, hsplit, under?_here hkey hfront]
    have hentries : (front ++ e :: back).Pairwise fun a b => a.1.same b.1 = false := hsplit ▸ ho.distinct
    obtain ⟨-, hback, hdistinct⟩ := same_of_distinct hentries hkey
    rw [hdelete] at hchange
    cases hc : e.2.configurable with
    | false =>
      rw [hc] at hchange
      exact ho.answers_of_refused hchange (by simp [Change.Allowed, hown, hc])
    | true =>
      rw [hc] at hchange
      have ho' := ho.withProperties hdistinct
      refine answers_of_taken hchange (by simp [Change.Allowed, hown, hc]) ⟨?_, fun key' hne => ?_, rfl⟩ ho'
      · have hrest : ∀ x ∈ front ++ back, x.1.same key = false := fun x hx =>
          (List.mem_append.1 hx).elim (hfront x) fun hx => Key.same_comm key x.1 ▸ hback x hx
        show Object.own? _ key = none
        rw [ho'.own?_eq, under?_eq_none hrest]
      · have hne' : e.1.same key' = false := by rwa [Key.same_congr hkey, Key.same_comm]
        rw [ho'.own?_eq, ho.own?_eq, hsplit, under?_elsewhere hne']

/-- An ordinary object answers every change, and stays ordinary. -/
theorem answers (hc : c.IsProper) : o.Answers c ∧ (o.change c).1.Ordinary := by
  cases c with
  | define key d => exact ho.answers_define key hc
  | delete key => exact ho.answers_delete key

theorem changeAll {changes : List Change} (hc : ∀ c ∈ changes, c.IsProper) : (o.changeAll changes).Ordinary := by
  induction changes generalizing o with
  | nil => exact ho
  | cons c rest ih =>
    exact ih (ho.answers (hc c List.mem_cons_self)).2 fun c' hc' => hc c' (List.mem_cons_of_mem c hc')

end Ordinary

/-! ## 5. What stays -/

namespace Preserves

theorem refl (o : Object) : o.Preserves o where
  extensible := rfl
  closed _ _ h := h
  fixed _ p h hp := ⟨p, h, Property.keeps_refl hp⟩

theorem trans {o o' o'' : Object} (h : o.Preserves o') (h' : o'.Preserves o'') : o.Preserves o'' where
  extensible := h'.extensible.trans h.extensible
  closed hext key hkey := h'.closed (h.extensible.trans hext) key (h.closed hext key hkey)
  fixed key p hkey hp := by
    obtain ⟨q, hq, hpq⟩ := h.fixed key p hkey hp
    obtain ⟨r, hr, hqr⟩ := h'.fixed key q hq hpq.configurable
    exact ⟨r, hr, hpq.trans hqr⟩

end Preserves

/-- A change of an ordinary object keeps what has to stay: at another key nothing has changed, and at its own
key the change was allowed. -/
theorem Ordinary.preserves_change {o : Object} (ho : o.Ordinary) (hc : c.IsProper) : o.Preserves (o.change c).1 := by
  obtain ⟨hanswers, ho'⟩ := ho.answers hc
  cases htaken : (o.change c).2 with
  | false => exact (hanswers.refused htaken).symm ▸ Preserves.refl o
  | true =>
    have hallowed := hanswers.taken_iff.1 htaken
    obtain ⟨hhere, helse, hrest⟩ := hanswers.taken htaken
    generalize (o.change c).1 = o' at *
    refine ⟨by rw [← hrest], fun hext key hkey => ?_, fun key p hkey hp => ?_⟩
    · cases hsame : key.same c.key with
      | false => rw [helse key hsame, hkey]
      | true =>
        rw [ho.own?_congr hsame] at hkey
        rw [ho'.own?_congr hsame]
        cases c with
        | define key' d =>
          have hopen : o.extensible = true := by
            simpa [Change.Allowed, show o.own? key' = none from hkey] using hallowed
          exact absurd hext (by simp [hopen])
        | delete key' => exact hhere
    · cases hsame : key.same c.key with
      | false => exact ⟨p, (helse key hsame).trans hkey, Property.keeps_refl hp⟩
      | true =>
        rw [ho.own?_congr hsame] at hkey
        rw [ho'.own?_congr hsame]
        cases c with
        | define key' d =>
          obtain ⟨q, hq, hover⟩ := hhere
          have hadmits : p.configurable = true ∨ p.admits d = true := by
            simpa [Change.Allowed, show o.own? key' = some p from hkey] using hallowed
          have hadmits := hadmits.resolve_left (by simp [hp])
          exact ⟨q, hq, Property.keeps_of_overlays hp hadmits ((show o.own? key' = some p from hkey) ▸ hover)⟩
        | delete key' => exact absurd (hallowed p hkey) (by simp [hp])

theorem Ordinary.preserves_changeAll {o : Object} (ho : o.Ordinary) {changes : List Change}
    (hc : ∀ c ∈ changes, c.IsProper) : o.Preserves (o.changeAll changes) := by
  induction changes generalizing o with
  | nil => exact Preserves.refl o
  | cons c rest ih =>
    have hfirst := hc c List.mem_cons_self
    exact (ho.preserves_change hfirst).trans
      (ih (ho.answers hfirst).2 fun c' hc' => hc c' (List.mem_cons_of_mem c hc'))

/-- **Changes of an ordinary object.** Each of them is answered as its descriptor and the state of the object at
that moment say, and all of them together keep the properties that are not configurable and the keys of a closed
object. -/
theorem answers_changes {o : Object} (ho : o.Ordinary) {changes : List Change} (hc : ∀ c ∈ changes, c.IsProper) :
    (∀ front c back, changes = front ++ c :: back → (o.changeAll front).Answers c) ∧
      o.Preserves (o.changeAll changes) := by
  refine ⟨?_, ho.preserves_changeAll hc⟩
  rintro front c back rfl
  have hfront : (o.changeAll front).Ordinary :=
    ho.changeAll fun c' hc' => hc c' (List.mem_append_left _ hc')
  exact (hfront.answers (hc c (by simp))).1

/-- A closed object with a property that is read-only and not configurable. -/
def sealedEntry : Object :=
  { properties := #[(.string "a", .data (.boolean true) false true false)], extensible := false }

/-- Changes that want another value, no property, and a further property. -/
def intrusions : List Change :=
  [.define (.string "a") { value := some (.boolean false) }, .delete (.string "a"),
    .define (.string "b") (.ordinary .null)]

theorem answers_changes_sealed :
    sealedEntry.Ordinary ∧ (∀ c ∈ intrusions, c.IsProper) ∧
      (∀ front c back, intrusions = front ++ c :: back → (sealedEntry.changeAll front).Answers c) ∧
        sealedEntry.Preserves (sealedEntry.changeAll intrusions) := by
  have ho : sealedEntry.Ordinary := ⟨rfl, rfl, List.pairwise_singleton _ _⟩
  have hc : ∀ c ∈ intrusions, c.IsProper := by
    simp [intrusions, Change.IsProper, Descriptor.IsProper, Descriptor.isData, Descriptor.isAccessor,
      Descriptor.ordinary, Descriptor.data]
  exact ⟨ho, hc, answers_changes ho hc⟩

/-- The closed object refuses all three. -/
example : (sealedEntry.changeAll intrusions).properties.size = 1 := by
  cbv

end Object

end GuestScript
