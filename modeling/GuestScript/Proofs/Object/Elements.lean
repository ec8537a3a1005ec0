import GuestScript.Proofs.Number.Order
import GuestScript.Proofs.Object.Keys

/-!
# The elements of an array

An array keeps its elements apart from its stored properties, and an index can be on either side: one that is far past
the end becomes a stored property and leaves the length as it is.

* `Object.Carries`: an array with its elements. It owns the keys of the elements, the length and what is stored, and it
  lists exactly these (`Carries.own_iff`).
* `Operation.Parts`: the only operations that store a property under an index (`Carries.parts_of_stored`).
* `Object.Defined`: what a definition of an index does to the array, given that no stored property has the key of a
  virtual one (`Object.Separate`).

`Object.coherent_operate` collects this for any sequence of operations. An index that is not below the length does
exist (`Object.index_past_length`).
-/

namespace GuestScript

variable {i : Nat} {operations : List Operation} {d : Descriptor}

theorem Number.not_lt_of_le {x y : Float} (h : x ≤ y) : ¬ y < x := by
  rw [le_iff] at h
  rw [lt_iff, compare_swap (parts x) (parts y)]
  cases hc : (parts x).compare (parts y) with
  | none => simp
  | some order =>
    rw [hc] at h
    cases order <;> simp_all [Ordering.isLE]

namespace Object

/-! ## 1. Virtual properties -/

/-- An array with some elements, no more than indices can count. -/
structure Carries (o : Object) (es : Array Value) : Prop where
  elements : o.elements = some es
  text : o.text? = none
  bound : es.size ≤ Text.indexBound

variable {o : Object} {es : Array Value}

theorem toString_ne_length (i : Nat) : toString i ≠ "length" := by
  intro h
  have hl : 'l' ∈ Nat.toDigits 10 i := by
    have hlist := congrArg String.toList h
    rw [Nat.toString_eq_ofList_toDigits, String.toList_ofList] at hlist
    rw [hlist]
    decide
  exact absurd (Nat.isDigit_of_mem_toDigits (by decide) (by decide) hl) (by decide)

theorem toString_inj {j : Nat} (h : toString i = toString j) : i = j := by
  have hdigits : Nat.toDigits 10 i = Nat.toDigits 10 j := by
    simpa [Nat.toString_eq_ofList_toDigits] using congrArg String.toList h
  rw [← Nat.ofDigitChars_ten_toDigits (n := i), hdigits, Nat.ofDigitChars_ten_toDigits]

theorem index?_toString (h : i < Text.indexBound) : Text.index? (toString i) = some i :=
  Text.index?_eq_some_iff.mpr ⟨rfl, h⟩

namespace Carries

section
variable (ho : o.Carries es)
include ho

theorem virtual?_eq (name : String) : o.virtual? name = arrayProperty? es o.frozen name := by
  simp only [virtual?, ho.elements, ho.text]
  cases arrayProperty? es o.frozen name <;> rfl

theorem virtual?_element (hi : i < Text.indexBound) :
    o.virtual? (toString i) = es[i]?.map fun v => .data v (!o.frozen) true (!o.frozen) := by
  rw [ho.virtual?_eq, arrayProperty?, if_neg (by simpa using toString_ne_length i), index?_toString hi]

theorem elementKeys_eq : o.elementKeys = (List.range es.size).map fun i => .string (toString i) := by
  rw [elementKeys, ho.elements]
  rfl

theorem lengthKeys_eq : o.lengthKeys = [.string "length"] := by
  rw [lengthKeys, ho.elements]
  rfl

/-- The virtual keys are those of the elements and of the length. -/
theorem virtual?_isSome (name : String) :
    (o.virtual? name).isSome = true ↔ .string name ∈ o.elementKeys ++ o.lengthKeys := by
  have hlist : .string name ∈ o.elementKeys ++ o.lengthKeys ↔
      (∃ i < es.size, toString i = name) ∨ name = "length" := by
    simp [ho.elementKeys_eq, ho.lengthKeys_eq]
  rw [hlist]
  constructor
  · intro h
    rw [ho.virtual?_eq, arrayProperty?] at h
    split at h
    · rename_i hname
      exact .inr (beq_iff_eq.mp hname)
    · split at h
      · rename_i i hi
        rw [Option.isSome_map] at h
        refine .inl ⟨i, ?_, (Text.index?_eq_some_iff.mp hi).1.symm⟩
        by_contra hlt
        rw [Array.getElem?_eq_none (Nat.le_of_not_lt hlt)] at h
        cases h
      · cases h
  · rintro (⟨i, hi, rfl⟩ | rfl)
    · rw [ho.virtual?_element (hi.trans_le ho.bound), Option.isSome_map, Array.getElem?_eq_getElem hi]
      rfl
    · rw [ho.virtual?_eq]
      rfl

theorem hasOwn_eq (key : Key) : o.hasOwn key = holds (o.elementKeys ++ o.lengthKeys ++ o.keys) key := by
  rw [holds_append, ← stored?_isSome, hasOwn]
  cases key with
  | symbol s =>
    have hnone : holds (o.elementKeys ++ o.lengthKeys) (.symbol s) = false := by
      simp [holds, ho.elementKeys_eq, ho.lengthKeys_eq, Key.same]
    rw [hnone, Bool.false_or]
    rfl
  | string name =>
    have hvirtual : holds (o.elementKeys ++ o.lengthKeys) (.string name) = (o.virtual? name).isSome := by
      rw [Bool.eq_iff_iff, ho.virtual?_isSome, holds, List.any_eq_true]
      constructor
      · rintro ⟨k, hk, hsame⟩
        cases k with
        | string name' =>
          obtain rfl : name' = name := beq_iff_eq.mp hsame
          exact hk
        | symbol s => cases hsame
      · exact fun h => ⟨_, h, Key.same_self _⟩
    rw [hvirtual, own?]
    cases o.virtual? name <;> rfl

/-- An array lists what it owns. -/
theorem own_iff (key : Key) : o.hasOwn key = true ↔ ∃ k ∈ o.ownKeys, k.same key = true := by
  rw [ho.hasOwn_eq, holds, List.any_eq_true]
  simp only [(ownKeys_perm ho.text).mem_iff]

end

end Carries

theorem find?_isSome (o : Object) (key : Key) : (o.find? key).isSome = holds o.keys key := by
  rcases o.find?_cases key with ⟨hfind, hnone⟩ | ⟨front, e, back, hsplit, hfind, hkey, -⟩
  · rw [hfind, holds, keys, eq_comm, List.any_map]
    exact List.any_eq_false.mpr fun e he => by simp [hnone e he]
  · rw [hfind, holds, keys, hsplit]
    simp [hkey]

/-- Whether no stored property has the key of a virtual one. -/
def Separate (o : Object) : Prop :=
  ∀ name, (o.virtual? name).isSome = true → o.stored? (.string name) = none

theorem distinct_ownKeys (ho : o.Carries es) (hd : DistinctKeys o.keys) (hs : o.Separate) : DistinctKeys o.ownKeys := by
  refine ((ownKeys_perm ho.text).pairwise_iff fun {a b} h => (b.same_comm a).trans h).mpr ?_
  refine List.pairwise_append.mpr ⟨?_, hd, fun a ha b hb => ?_⟩
  · rw [ho.elementKeys_eq, ho.lengthKeys_eq]
    refine List.pairwise_append.mpr ⟨?_, List.pairwise_singleton _ _, ?_⟩
    · rw [List.pairwise_map]
      refine List.nodup_range.imp fun {i j} hne => ?_
      simpa [Key.same] using fun h => hne (toString_inj h)
    · simpa [Key.same] using fun i _ => toString_ne_length i
  · cases a with
    | symbol s => simp [ho.elementKeys_eq, ho.lengthKeys_eq] at ha
    | string name =>
      have hnone := hs name ((ho.virtual?_isSome name).mpr ha)
      have hb' : holds o.keys (.string name) = false := by rw [← stored?_isSome, hnone]; rfl
      rw [holds, List.any_eq_false] at hb'
      rw [Key.same_comm]
      simpa using hb' b hb

/-! ## 2. Elements that are stored -/

/-- Whether an operation gives an array no more elements than indices can count. -/
def Operation.IsProper : Operation → Prop
  | replace es => es.size ≤ Text.indexBound
  | _ => True

/-- Whether an operation on an array makes a stored property of an index: the index is far past the end, or an accessor
is put in. -/
def Operation.Parts (es : Array Value) (i : Nat) (op : Operation) : Prop :=
  op.key? = some (.string (toString i)) ∧
    (es.size + elementGap ≤ i ∨ ∃ p : Property, p.isAccessor = true ∧ op = .insert (toString i) p)

theorem size_setElement (es : Array Value) (i : Nat) (v : Value) :
    (setElement es i v).size = max es.size (i + 1) := by
  unfold setElement
  split
  · rw [Array.size_setIfInBounds]
    omega
  · simp only [Array.size_push, Array.size_append, Array.size_replicate]
    omega

theorem getElem?_setElement (es : Array Value) (i : Nat) (v : Value) (j : Nat) :
    (setElement es i v)[j]? =
      if j = i then some v else if j < es.size then es[j]? else if j < i then some .undefined else none := by
  unfold setElement
  by_cases hi : i < es.size
  · rw [if_pos hi, Array.getElem?_setIfInBounds]
    by_cases hj : i = j
    · subst hj
      simp [hi]
    · have hnone : ¬ j < es.size → es[j]? = none := fun h => Array.getElem?_eq_none (Nat.le_of_not_lt h)
      rw [if_neg hj, if_neg (Ne.symm hj)]
      split
      · rfl
      · rename_i h
        rw [hnone h, if_neg (by omega)]
  · rw [if_neg hi, Array.getElem?_push, Array.getElem?_append, Array.getElem?_replicate]
    have hsize : (es ++ Array.replicate (i - es.size) Value.undefined).size = i := by
      rw [Array.size_append, Array.size_replicate]
      omega
    rw [hsize]
    by_cases hj : j = i
    · rw [if_pos hj, if_pos hj]
    · rw [if_neg hj, if_neg hj]
      by_cases hold : j < es.size
      · rw [if_pos hold, if_pos hold]
      · rw [if_neg hold, if_neg hold]
        by_cases hnew : j < i
        · rw [if_pos hnew, if_pos (by omega)]
        · rw [if_neg hnew, if_neg (by omega)]

theorem size_resize (es : Array Value) (n : Nat) : (resize es n).size = n := by
  unfold resize
  split
  · rename_i h
    simp [Array.take, Nat.min_eq_left h]
  · simp only [Array.size_append, Array.size_replicate]
    omega

/-- A length is no more than indices can count. -/
theorem size_resize_le {x : Float} (h : isLength x = true) (es : Array Value) :
    (resize es (Number.toNatural64 x)).size ≤ Text.indexBound := by
  have hle : x ≤ 4294967295.0 := by
    rw [isLength, Bool.and_eq_true, Bool.and_eq_true] at h
    exact of_decide_eq_true h.2
  have hbound : Number.ofNat Text.indexBound = 4294967295.0 := by decide +kernel
  rw [size_resize]
  exact Number.toNatural64_le_of_not_lt (by decide) (hbound ▸ Number.not_lt_of_le hle)

/-- Defining or deleting a stored property leaves everything else. -/
theorem defineStored_rest (o : Object) (key : Key) (d : Descriptor) :
    ∃ properties, (o.defineStored key d).1 = { o with properties := properties } := by
  rcases o.defineStored_cases key d with ⟨-, h⟩ | ⟨_, _, _, -, -, -, h⟩ <;> rw [h] <;> split_ifs <;> exact ⟨_, rfl⟩

theorem deleteStored_rest (o : Object) (key : Key) :
    ∃ properties, (o.deleteStored key).1 = { o with properties := properties } := by
  rcases o.deleteStored_cases key with ⟨-, h⟩ | ⟨_, _, _, -, -, -, h⟩
  · rw [h]
    exact ⟨_, rfl⟩
  · rw [h]
    split_ifs <;> exact ⟨_, rfl⟩

theorem store_rest (o : Object) (key : Key) (p : Property) :
    ∃ properties, o.store key p = { o with properties := properties } := by
  unfold store
  split <;> exact ⟨_, rfl⟩

/-- Defining or deleting a property, or changing the elements, leaves everything but properties and elements. -/
theorem defineNamed_rest (o : Object) (name : String) (d : Descriptor) :
    ∃ properties, (o.defineNamed name d).1 = { o with properties := properties } := by
  unfold defineNamed
  split
  · split
    · exact ⟨_, rfl⟩
    · exact o.defineStored_rest _ d
  · exact o.defineStored_rest _ d

theorem define_rest (o : Object) (key : Key) (d : Descriptor) :
    ∃ properties elements, (o.define key d).1 = { o with properties := properties, elements := elements } := by
  have hproperties {o' : Object} (h : ∃ properties, o' = { o with properties := properties }) :
      ∃ properties elements, o' = { o with properties := properties, elements := elements } :=
    h.imp fun _ h => ⟨_, h⟩
  cases key with
  | symbol s => exact hproperties (o.defineStored_rest _ d)
  | string name =>
    simp only [define, defineLength, defineElement]
    repeat' split
    all_goals first | exact ⟨_, _, rfl⟩ | exact hproperties (o.defineNamed_rest name d)

theorem delete_rest (o : Object) (key : Key) :
    ∃ properties elements, (o.delete key).1 = { o with properties := properties, elements := elements } := by
  have hstored (key : Key) :
      ∃ properties elements, (o.deleteStored key).1 = { o with properties := properties, elements := elements } :=
    (o.deleteStored_rest key).imp fun _ h => ⟨_, h⟩
  cases key with
  | symbol s => exact hstored _
  | string name =>
    simp only [delete, deleteNamed]
    repeat' split
    all_goals first | exact ⟨_, _, rfl⟩ | exact hstored _

theorem changeElements_rest {α : Type} (o : Object) (f : Array Value → Array Value × α) :
    ∃ properties elements, (o.changeElements f).1 = { o with properties := properties, elements := elements } := by
  dsimp only [changeElements]
  split <;> exact ⟨_, _, rfl⟩

namespace Carries

section
variable (ho : o.Carries es)
include ho

theorem withProperties {o' : Object} (h : ∃ properties, o' = { o with properties := properties }) : o'.Carries es := by
  obtain ⟨properties, rfl⟩ := h
  exact ⟨ho.elements, ho.text, ho.bound⟩

theorem withElements {es' : Array Value} (h : es'.size ≤ Text.indexBound) :
    Carries { o with elements := some es' } es' :=
  ⟨rfl, ho.text, h⟩

theorem defineNamed_eq (name : String) (d : Descriptor) : o.defineNamed name d = o.defineStored (.string name) d := by
  simp only [defineNamed, ho.text]

theorem deleteNamed_eq (name : String) : o.deleteNamed name = o.deleteStored (.string name) := by
  simp only [deleteNamed, ho.text]

theorem size_setElement_le {name : String} (hi : Text.index? name = some i) (v : Value) :
    (setElement es i v).size ≤ Text.indexBound := by
  have hbound := (Text.index?_eq_some_iff.mp hi).2
  have hsize := ho.bound
  rw [size_setElement]
  omega

theorem define (key : Key) (d : Descriptor) : ∃ es', (o.define key d).1.Carries es' := by
  cases key with
  | symbol s => exact ⟨es, ho.withProperties (o.defineStored_rest _ d)⟩
  | string name =>
    have hnamed : (o.defineNamed name d).1.Carries es := by
      rw [ho.defineNamed_eq]
      exact ho.withProperties (o.defineStored_rest _ d)
    simp only [Object.define, ho.elements]
    split
    · split
      · exact ⟨es, ho⟩
      · unfold defineLength
        split
        · split
          · rename_i hx
            exact ⟨_, ho.withElements (size_resize_le hx es)⟩
          · exact ⟨es, ho⟩
        · exact ⟨es, ho⟩
    · split
      · exact ⟨es, hnamed⟩
      · rename_i i hi
        split
        · exact ⟨es, ho⟩
        · unfold defineElement
          split_ifs
          · exact ⟨es, hnamed⟩
          · exact ⟨es, ho⟩
          · exact ⟨es, ho⟩
          · exact ⟨_, ho.withElements (ho.size_setElement_le hi _)⟩
          · exact ⟨es, hnamed⟩

theorem delete (key : Key) : ∃ es', (o.delete key).1.Carries es' := by
  cases key with
  | symbol s => exact ⟨es, ho.withProperties (o.deleteStored_rest _)⟩
  | string name =>
    have hnamed : (o.deleteNamed name).1.Carries es := by
      rw [ho.deleteNamed_eq]
      exact ho.withProperties (o.deleteStored_rest _)
    have hdrop (i : Nat) : (dropElement es i).size ≤ Text.indexBound := by
      refine Nat.le_trans ?_ ho.bound
      unfold dropElement
      split <;> simp
    simp only [Object.delete, ho.elements]
    split
    · exact ⟨es, ho⟩
    · split
      · exact ⟨es, hnamed⟩
      · split_ifs
        · exact ⟨es, ho⟩
        · exact ⟨_, ho.withElements (hdrop _)⟩
        · exact ⟨es, hnamed⟩

/-- An array stays one. -/
theorem apply {op : Operation} (hop : op.IsProper) : ∃ es', (op.apply o).Carries es' := by
  cases op with
  | define key d => exact ho.define key d
  | insert name p =>
    have hstore := ho.withProperties (o.store_rest (.string name) p)
    change ∃ es', (o.insert name p).Carries es'
    unfold insert
    split
    · rename_i hes hi _
      obtain rfl : es = _ := Option.some.inj (ho.elements.symm.trans hes)
      split
      · exact ⟨_, ho.withElements (ho.size_setElement_le hi _)⟩
      · exact ⟨es, hstore⟩
    · exact ⟨es, hstore⟩
  | insertSymbol s p => exact ⟨es, ho.withProperties (o.store_rest _ p)⟩
  | delete key => exact ho.delete key
  | replace es' => exact ⟨es', congrArg (Option.map fun _ => es') ho.elements, ho.text, hop⟩

/-- Defining an index changes the property that is stored under it, if there is one, and else an element, unless the
index is far past the end. -/
theorem define_index (hi : i < Text.indexBound) (d : Descriptor) :
    o.define (.string (toString i)) d =
      if o.frozen then (o, false)
      else if holds o.keys (.string (toString i)) then o.defineStored (.string (toString i)) d
      else if d.isAccessor then (o, false)
      else if i < es.size + elementGap then
        if es.size ≤ i && !o.extensible then (o, false)
        else ({ o with elements := some (setElement es i (d.value.getD .undefined)) }, true)
      else o.defineStored (.string (toString i)) d := by
  have hlength : (toString i == "length") = false := by simpa using toString_ne_length i
  simp only [Object.define, ho.elements, hlength, index?_toString hi, defineElement, find?_isSome, ho.defineNamed_eq,
    Bool.false_eq_true, if_false]

/-- An index that an operation makes a stored property is far past the end, or it is an accessor that is put in. -/
theorem parts_of_stored (hi : i < Text.indexBound) {op : Operation}
    (hbefore : holds o.keys (.string (toString i)) = false)
    (hafter : holds (op.apply o).keys (.string (toString i)) = true) : op.Parts es i := by
  have hsame (h : (op.apply o).keys = o.keys) : op.Parts es i := by
    rw [h, hbefore] at hafter
    cases hafter
  have hkey : op.key? = some (.string (toString i)) ∧ op.grows = true := by
    have hchange := o.keyChange_apply op
    generalize op.key? = key? at hchange ⊢
    generalize op.grows = grows at hchange ⊢
    cases hchange with
    | same h =>
      rw [← SameKeys.holds_eq h, hbefore] at hafter
      cases hafter
    | @added key hnew h =>
      rw [h, holds_append, hbefore, Bool.false_or] at hafter
      cases key with
      | string name =>
        obtain rfl : name = toString i := by simpa [holds, Key.same] using hafter
        exact ⟨rfl, rfl⟩
      | symbol s => simp [holds, Key.same] at hafter
    | @gone key k front back hk h h' =>
      rw [h, holds_append, holds, holds, List.any_cons, Bool.or_eq_false_iff, Bool.or_eq_false_iff] at hbefore
      rw [h', holds_append, holds, holds, hbefore.1, hbefore.2.2] at hafter
      cases hafter
  refine ⟨hkey.1, ?_⟩
  cases op with
  | define key d =>
    obtain rfl : key = .string (toString i) := Option.some.inj hkey.1
    by_contra hnear
    have hlt : i < es.size + elementGap := Nat.lt_of_not_le fun h => hnear (.inl h)
    refine hnear (hsame ?_).2
    rw [Operation.apply, ho.define_index hi, hbefore, if_neg Bool.false_ne_true, if_pos hlt]
    split_ifs <;> rfl
  | insert name p =>
    obtain rfl : name = toString i := by simpa [Operation.key?.eq_def] using hkey.1
    by_contra hnear
    have hlt : i < es.size + elementGap := Nat.lt_of_not_le fun h => hnear (.inl h)
    cases hp : p.content with
    | accessor getter setter => exact hnear (.inr ⟨p, by rw [Property.isAccessor, hp], rfl⟩)
    | data value writable =>
      refine hnear (hsame ?_).2
      simp only [Operation.apply.eq_def, Object.insert, ho.elements, index?_toString hi, hp]
      rw [if_pos hlt]
      rfl
  | insertSymbol s p => cases hkey.1
  | delete key => cases hkey.2
  | replace es' => cases hkey.1

end

/-- Every stored index of an array was put there by an operation that parts it from the elements. -/
theorem operate (ho : o.Carries es) (hops : ∀ op ∈ operations, op.IsProper) :
    ∃ es', (o.operate operations).Carries es' := by
  induction operations generalizing o es with
  | nil => exact ⟨es, ho⟩
  | cons op rest ih =>
    obtain ⟨es', ho'⟩ := ho.apply (hops op List.mem_cons_self)
    exact ih ho' fun op' hop' => hops op' (List.mem_cons_of_mem op hop')

/-- A stored index was put there by an operation that parts it from the elements. -/
theorem parts_operate (ho : o.Carries es) (hops : ∀ op ∈ operations, op.IsProper) (hi : i < Text.indexBound)
    (hbefore : holds o.keys (.string (toString i)) = false)
    (hafter : holds (o.operate operations).keys (.string (toString i)) = true) :
    ∃ front op back es', operations = front ++ op :: back ∧ (o.operate front).Carries es' ∧ op.Parts es' i := by
  induction operations generalizing o es with
  | nil => exact absurd hafter (by simpa [Object.operate] using hbefore)
  | cons op rest ih =>
    obtain ⟨es', ho'⟩ := ho.apply (hops op List.mem_cons_self)
    cases hstep : holds (op.apply o).keys (.string (toString i)) with
    | true => exact ⟨[], op, rest, es, rfl, ho, ho.parts_of_stored hi hbefore hstep⟩
    | false =>
      obtain ⟨front, op', back, es'', rfl, hfront, hparts⟩ :=
        ih ho' (fun op' hop' => hops op' (List.mem_cons_of_mem op hop')) hstep hafter
      exact ⟨op :: front, op', back, es'', rfl, hfront, hparts⟩

end Carries

/-! ## 3. Definitions of elements -/

/-- The value of an own data property. -/
def valueAt? (o : Object) (i : Nat) : Option Value :=
  (o.own? (.string (toString i))).bind Property.value?

/-- What defining an index does to an array that takes it. -/
structure Defined (o o' : Object) (es : Array Value) (i : Nat) (d : Descriptor) : Prop where
  /-- The other elements stay, and the new ones in front of the index are `undefined`. -/
  elements : ∃ es', o'.elements = some es' ∧ es.size ≤ es'.size ∧ es'.size ≤ max es.size (i + 1) ∧
    ∀ j < es'.size, j ≠ i → es'[j]? = some (es[j]?.getD .undefined)
  /-- A value that is named is there. -/
  named : d.isAccessor = false → ∀ v, d.value = some v → o'.valueAt? i = some v
  /-- If no value is named, a property that is new holds `undefined`, and one that is stored keeps its value. -/
  unnamed : d.isAccessor = false → d.value = none → es.size ≤ i →
    (o.own? (.string (toString i)) = none → o'.valueAt? i = some .undefined) ∧
      ∀ v, o.valueAt? i = some v → o'.valueAt? i = some v

theorem value?_overlay {p : Property} (hd : d.isAccessor = false) :
    (∀ v, d.value = some v → (p.overlay d).value? = some v) ∧
      (d.value = none → ∀ v, p.value? = some v → (p.overlay d).value? = some v) := by
  obtain ⟨content, enumerable, configurable⟩ := p
  cases content with
  | data value writable =>
    refine ⟨fun v hv => ?_, fun hnone v hv => ?_⟩
    · simp [Property.overlay, Property.value?, hd, hv]
    · simpa [Property.overlay, Property.value?, hd, hnone] using hv
  | accessor getter setter =>
    refine ⟨fun v hv => ?_, fun _ v hv => ?_⟩
    · have hdata : d.isData = true := by simp [Descriptor.isData, hv]
      simp [Property.overlay, Property.value?, hdata, hv]
    · simp [Property.value?] at hv

theorem value?_complete (hd : d.isAccessor = false) : d.complete.value? = some (d.value.getD .undefined) := by
  simp [Descriptor.complete, hd, Property.value?]

/-- What is stored under a key that is not virtual is the property. -/
theorem own?_stored {name : String} (hvirtual : o.virtual? name = none) {o' : Object}
    {entries : List (Key × Property)} (ho' : o' = { o with properties := ⟨entries⟩ }) :
    o'.own? (.string name) = under? entries (.string name) := by
  have hvirtual' : o'.virtual? name = none := by
    subst ho'
    exact hvirtual
  rw [own?, hvirtual', stored?_eq, ho']

namespace Carries

/-- A definition that changes a stored property. -/
theorem defined_stored (ho : o.Carries es) (hvirtual : o.virtual? (toString i) = none)
    (htaken : (o.defineStored (.string (toString i)) d).2 = true) :
    Defined o (o.defineStored (.string (toString i)) d).1 es i d := by
  have hold (j : Nat) (hj : j < es.size) : es[j]? = some (es[j]?.getD .undefined) := by
    rw [Array.getElem?_eq_getElem hj]
    rfl
  have hbefore := own?_stored hvirtual  (rfl : o = { o with properties := ⟨o.properties.toList⟩ })
  rcases o.defineStored_cases (.string (toString i)) d with ⟨hnone, h⟩ | ⟨front, e, back, hsplit, hkey, hfront, h⟩
  · rw [h] at htaken ⊢
    split at htaken
    · rename_i hext
      rw [if_pos hext]
      have hpush : o.properties.push (.string (toString i), d.complete) =
          ⟨o.properties.toList ++ [(.string (toString i), d.complete)]⟩ := Array.ext' Array.toList_push
      rw [hpush]
      have hafter := own?_stored hvirtual
        (rfl : _ = { o with properties := ⟨o.properties.toList ++ [(Key.string (toString i), d.complete)]⟩ })
      rw [under?_here (Key.same_self _) hnone] at hafter
      rw [under?_eq_none hnone] at hbefore
      refine ⟨⟨es, ho.elements, Nat.le_refl _, Nat.le_max_left _ _, fun j hj _ => hold j hj⟩, fun hd v hv => ?_,
        fun hd hv _ => ⟨fun _ => ?_, fun v hv' => ?_⟩⟩
      · rw [valueAt?, hafter, Option.bind_some, value?_complete hd, hv]
        rfl
      · rw [valueAt?, hafter, Option.bind_some, value?_complete hd, hv]
        rfl
      · rw [valueAt?, hbefore] at hv'
        cases hv'
    · cases htaken
  · rw [h] at htaken ⊢
    split at htaken
    · cases htaken
    · rename_i hadmits
      rw [if_neg hadmits]
      have hafter := own?_stored hvirtual
        (rfl : _ = { o with properties := ⟨front ++ (Key.string (toString i), e.2.overlay d) :: back⟩ })
      rw [under?_here (Key.same_self _) hfront] at hafter
      rw [hsplit, under?_here hkey hfront] at hbefore
      refine ⟨⟨es, ho.elements, Nat.le_refl _, Nat.le_max_left _ _, fun j hj _ => hold j hj⟩, fun hd v hv => ?_,
        fun hd hv _ => ⟨fun hnone => ?_, fun v hv' => ?_⟩⟩
      · rw [valueAt?, hafter, Option.bind_some]
        exact (value?_overlay hd).1 v hv
      · rw [hbefore] at hnone
        cases hnone
      · rw [valueAt?, hbefore, Option.bind_some] at hv'
        rw [valueAt?, hafter, Option.bind_some]
        exact (value?_overlay hd).2 hv v hv'

/-- A definition that changes an element. -/
theorem defined_element (ho : o.Carries es) (hi : i < Text.indexBound)
    (hstored : holds o.keys (.string (toString i)) = false) (d : Descriptor) :
    Defined o { o with elements := some (setElement es i (d.value.getD .undefined)) } es i d := by
  have ho' := ho.withElements (ho.size_setElement_le (index?_toString hi) (d.value.getD .undefined))
  have hvalue : valueAt? { o with elements := some (setElement es i (d.value.getD .undefined)) } i =
      some (d.value.getD .undefined) := by
    rw [valueAt?, own?, ho'.virtual?_element hi, getElem?_setElement, if_pos rfl]
    rfl
  constructor
  case elements =>
    refine ⟨_, rfl, ?_, ?_, fun j hj hne => ?_⟩
    · rw [size_setElement]
      exact Nat.le_max_left _ _
    · rw [size_setElement]
    · rw [size_setElement] at hj
      rw [getElem?_setElement, if_neg hne]
      by_cases hold : j < es.size
      · rw [if_pos hold, Array.getElem?_eq_getElem hold]
        rfl
      · rw [if_neg hold, if_pos (by omega), Array.getElem?_eq_none (Nat.le_of_not_lt hold)]
        rfl
  case named =>
    intro _ v hv
    rw [hvalue, hv]
    rfl
  case unnamed =>
    intro _ hv hsize
    refine ⟨fun _ => by rw [hvalue, hv]; rfl, fun v hv' => ?_⟩
    have hnone : o.own? (.string (toString i)) = none := by
      rw [own?, ho.virtual?_element hi, Array.getElem?_eq_none hsize, ← Option.not_isSome_iff_eq_none]
      rw [← stored?_isSome] at hstored
      exact Bool.eq_false_iff.mp hstored
    rw [valueAt?, hnone] at hv'
    cases hv'

/-- An array that takes the definition of an index. -/
theorem defined (ho : o.Carries es) (hs : o.Separate) (hi : i < Text.indexBound)
    (htaken : (o.define (.string (toString i)) d).2 = true) :
    Defined o (o.define (.string (toString i)) d).1 es i d := by
  rw [ho.define_index hi] at htaken ⊢
  split at htaken
  · cases htaken
  rename_i hfrozen
  rw [if_neg hfrozen]
  by_cases hstored : holds o.keys (.string (toString i)) = true
  · rw [if_pos hstored] at htaken ⊢
    refine ho.defined_stored ?_ htaken
    rw [← stored?_isSome] at hstored
    by_contra hvirtual
    rw [hs _ (Option.isSome_iff_ne_none.mpr hvirtual)] at hstored
    cases hstored
  rw [if_neg hstored] at htaken ⊢
  split at htaken
  · cases htaken
  rename_i hdata
  rw [if_neg hdata]
  by_cases hnear : i < es.size + elementGap
  · rw [if_pos hnear] at htaken ⊢
    split at htaken
    · cases htaken
    rename_i hopen
    rw [if_neg hopen]
    exact ho.defined_element hi (Bool.eq_false_iff.mpr hstored) d
  · rw [if_neg hnear] at htaken ⊢
    refine ho.defined_stored ?_ htaken
    rw [ho.virtual?_element hi, Array.getElem?_eq_none (by omega)]
    rfl

end Carries

/-- **Arrays.** After any operations on an array: an index that it owns is one of an element, unless it was a stored
property at the start or was parted from the elements when it became one; what the array lists is what it owns; and as
long as no stored property has the key of an element or of the length, nothing is listed twice, and a definition of an
index that is taken sets that element and leaves the others. -/
theorem coherent_operate (hd : DistinctKeys o.keys) (ho : o.Carries es) {operations : List Operation}
    (hops : ∀ op ∈ operations, op.IsProper) :
    ∃ es', (o.operate operations).Carries es' ∧
      (∀ i < Text.indexBound, (o.operate operations).hasOwn (.string (toString i)) = true → es'.size ≤ i →
        (o.stored? (.string (toString i))).isSome = true ∨
          ∃ front op back before, operations = front ++ op :: back ∧ (o.operate front).Carries before ∧
            op.Parts before i) ∧
      (∀ key, (o.operate operations).hasOwn key = true ↔ ∃ k ∈ (o.operate operations).ownKeys, k.same key = true) ∧
      ((o.operate operations).Separate →
        DistinctKeys (o.operate operations).ownKeys ∧
          ∀ i < Text.indexBound, ∀ d, ((o.operate operations).define (.string (toString i)) d).2 = true →
            Defined (o.operate operations) ((o.operate operations).define (.string (toString i)) d).1 es' i d) := by
  have hd' := distinct_operate hd operations
  obtain ⟨es', ho'⟩ := ho.operate hops
  refine ⟨es', ho', fun i hi hown hsize => ?_, ho'.own_iff, fun hs =>
    ⟨distinct_ownKeys ho' hd' hs, fun i hi d => ho'.defined hs hi⟩⟩
  rw [hasOwn, own?, ho'.virtual?_element hi, Array.getElem?_eq_none hsize] at hown
  have hafter : holds (o.operate operations).keys (.string (toString i)) = true := by
    rw [← stored?_isSome]
    exact hown
  rw [stored?_isSome]
  cases hbefore : holds o.keys (.string (toString i)) with
  | true => exact .inl rfl
  | false => exact .inr (ho.parts_operate hops hi hbefore hafter)

/-- An array of one element. -/
def single : Object :=
  { sort := .array, elements := some #[.null] }

/-- Operations that make the array longer and take its first element away. -/
def lengthened : List Operation :=
  [.define (.string "2") { value := some (.boolean true) }, .delete (.string "0")]

theorem coherent_operate_lengthened :
    DistinctKeys single.keys ∧ single.Carries #[.null] ∧ (∀ op ∈ lengthened, op.IsProper) ∧
      (single.operate lengthened).Separate ∧ DistinctKeys (single.operate lengthened).ownKeys ∧
      1 < Text.indexBound ∧ ((single.operate lengthened).define (.string (toString 1)) (.ordinary .null)).2 = true ∧
      ∃ es', Defined (single.operate lengthened)
        ((single.operate lengthened).define (.string (toString 1)) (.ordinary .null)).1 es' 1 (.ordinary .null) := by
  have hd : DistinctKeys single.keys := .nil
  have ho : single.Carries #[.null] := ⟨rfl, rfl, by decide⟩
  have hops : ∀ op ∈ lengthened, op.IsProper := by simp [lengthened, Operation.IsProper]
  have hproperties : (single.operate lengthened).properties = #[] := by cbv
  have hs : (single.operate lengthened).Separate := fun name _ => by
    rw [stored?, hproperties]
    rfl
  have htaken : ((single.operate lengthened).define (.string (toString 1)) (.ordinary .null)).2 = true := by cbv
  obtain ⟨es', -, -, -, hseparate⟩ := coherent_operate hd ho hops
  obtain ⟨honce, hdefined⟩ := hseparate hs
  exact ⟨hd, ho, hops, hs, honce, by decide, htaken, es', hdefined 1 (by decide) _ htaken⟩

/-- An index far past the end becomes a property and leaves the length as it is. -/
theorem index_past_length :
    ¬ ∀ (o : Object) (es : Array Value), o.properties = #[] → o.Carries es → ∀ operations : List Operation,
      (∀ op ∈ operations, op.IsProper) → ∀ es', (o.operate operations).elements = some es' → ∀ i < Text.indexBound,
        (o.operate operations).hasOwn (.string (toString i)) = true → i < es'.size := by
  intro h
  have hlt := h { elements := some #[] } #[] rfl ⟨rfl, rfl, by decide⟩
    [.define (.string "2000000") (.ordinary .null)] (by simp [Operation.IsProper]) #[] (by cbv) 2000000 (by decide)
      (by cbv)
  exact absurd hlt (by decide)

end Object

end GuestScript
