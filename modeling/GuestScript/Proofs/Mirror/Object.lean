import GuestScript.Proofs.Mirror.Basic

/-!
# Objects along an embedding

What can be asked of a value or an object has the same answer after it was moved, and what can be made of an object
can be made before or after it is moved. Two things carry this: keys and symbols are only compared, and moving them is
injective; and an object is moved entry by entry, so the place of an entry stays what it was.

For every function there are two facts: it commutes with `image`, and its results stay within reach.
-/

namespace GuestScript

variable {v : Value} {p : Property} {d : Descriptor} {elements : Array Value} {e : Embedding}

/-! ## 1. Moving plain things and containers -/

section

variable {α β : Type}

@[simp] theorem image_unit (u : Unit) : image e u = u := rfl
@[simp] theorem image_bool (b : Bool) : image e b = b := rfl
@[simp] theorem image_nat (n : Nat) : image e n = n := rfl
@[simp] theorem image_unitCode (u : UInt16) : image e u = u := rfl
@[simp] theorem image_float (x : Float) : image e x = x := rfl
@[simp] theorem image_char (c : Char) : image e c = c := rfl
@[simp] theorem image_string (s : String) : image e s = s := rfl
@[simp] theorem image_regex (r : Regex) : image e r = r := rfl
@[simp] theorem image_match (m : Regex.Match) : image e m = m := rfl

@[simp] theorem image_objectId (id : ObjectId) : image e id = e.object id := rfl
@[simp] theorem image_scopeId (id : ScopeId) : image e id = e.scope id := rfl

variable [Carried α] [Carried β] {a : α} {l : Array α}

@[simp] theorem image_none : image e (none : Option α) = none := rfl
@[simp] theorem image_some (a : α) : image e (some a) = some (image e a) := rfl
@[simp] theorem image_pair (a : α) (b : β) : image e (a, b) = (image e a, image e b) := rfl
@[simp] theorem fst_image (p : α × β) : (image e p).1 = image e p.1 := rfl
@[simp] theorem snd_image (p : α × β) : (image e p).2 = image e p.2 := rfl

theorem image_option (o : Option α) : image e o = o.map (image e) := rfl
theorem image_list (l : List α) : image e l = l.map (image e) := rfl
theorem image_array (l : Array α) : image e l = l.map (image e) := rfl

theorem within_none : Within e (none : Option α) := nofun

theorem within_some : Within e (some a) ↔ Within e a :=
  ⟨fun h => h a rfl, fun h => by rintro b ⟨⟩; exact h⟩

theorem within_nil : Within e ([] : List α) := nofun

theorem within_cons {l : List α} : Within e (a :: l) ↔ Within e a ∧ Within e l :=
  List.forall_mem_cons

theorem within_empty : Within e (#[] : Array α) := by
  simp [Within]

theorem within_append {l l' : List α} (h : Within e l) (h' : Within e l') : Within e (l ++ l') :=
  List.forall_mem_append.mpr ⟨h, h'⟩

theorem within_reverse {l : List α} (h : Within e l) : Within e l.reverse :=
  fun a ha => h a (List.mem_reverse.mp ha)

theorem within_toList (h : Within e l) : Within e l.toList :=
  fun a ha => h a (Array.mem_toList_iff.mp ha)

theorem within_toArray {l : List α} (h : Within e l) : Within e l.toArray :=
  fun a ha => h a (List.mem_toArray.mp ha)

theorem within_push (h : Within e l) (ha : Within e a) : Within e (l.push a) := by
  intro b hb
  rcases Array.mem_push.mp hb with hb | rfl
  · exact h b hb
  · exact ha

theorem within_appendArray {l' : Array α} (h : Within e l) (h' : Within e l') : Within e (l ++ l') :=
  fun a ha => (Array.mem_append.mp ha).elim (h a) (h' a)

theorem within_getElem? (h : Within e l) (i : Nat) : Within e l[i]? :=
  fun a ha => h a (Array.mem_of_getElem? ha)

theorem within_set (h : Within e l) (i : Nat) (ha : Within e a) : Within e (l.setIfInBounds i a) := by
  intro b hb
  rcases Array.mem_or_eq_of_mem_setIfInBounds hb with hb | rfl
  · exact h b hb
  · exact ha

theorem within_extract (h : Within e l) (i j : Nat) : Within e (l.extract i j) := by
  intro a ha
  obtain ⟨k, hk, rfl⟩ := Array.mem_extract_iff_getElem.mp ha
  exact h _ (Array.getElem_mem _)

theorem within_pop (h : Within e l) : Within e l.pop := by
  intro a ha
  refine h a (Array.mem_toList_iff.mp (List.dropLast_subset _ ?_))
  rw [← Array.toList_pop]
  exact Array.mem_toList_iff.mpr ha

theorem within_replicate (ha : Within e a) (n : Nat) : Within e (Array.replicate n a) := by
  intro b hb
  rw [(Array.mem_replicate.mp hb).2]
  exact ha

end

section Arrays

variable {α : Type} [Carried α] {a b c d : α} {l : Array α}

theorem within_singleton (ha : Within e a) : Within e #[a] :=
  within_toArray (within_cons.mpr ⟨ha, within_nil⟩)

theorem within_two (ha : Within e a) (hb : Within e b) : Within e #[a, b] :=
  within_toArray (within_cons.mpr ⟨ha, within_cons.mpr ⟨hb, within_nil⟩⟩)

theorem within_three (ha : Within e a) (hb : Within e b) (hc : Within e c) : Within e #[a, b, c] :=
  within_toArray (within_cons.mpr ⟨ha, within_cons.mpr ⟨hb, within_cons.mpr ⟨hc, within_nil⟩⟩⟩)

theorem within_four (ha : Within e a) (hb : Within e b) (hc : Within e c) (hd : Within e d) :
    Within e #[a, b, c, d] :=
  within_toArray (within_cons.mpr ⟨ha, within_cons.mpr ⟨hb, within_cons.mpr ⟨hc, within_cons.mpr ⟨hd, within_nil⟩⟩⟩⟩)

@[simp] theorem image_emptyArray : image e (#[] : Array α) = #[] := by
  simp [image_array]

@[simp] theorem image_singleton (a : α) : image e #[a] = #[image e a] := by
  simp [image_array]

@[simp] theorem image_two (a b : α) : image e #[a, b] = #[image e a, image e b] := by
  simp [image_array]

@[simp] theorem image_three (a b c : α) : image e #[a, b, c] = #[image e a, image e b, image e c] := by
  simp [image_array]

@[simp] theorem image_four (a b c d : α) :
    image e #[a, b, c, d] = #[image e a, image e b, image e c, image e d] := by
  simp [image_array]

@[simp] theorem size_image (l : Array α) : (image e l).size = l.size :=
  Array.size_map

@[simp] theorem isEmpty_image (l : Array α) : (image e l).isEmpty = l.isEmpty :=
  congrArg (fun n => decide (n = 0)) Array.size_map

theorem append_image (l l' : Array α) : image e l ++ image e l' = image e (l ++ l') :=
  Array.map_append.symm

theorem toList_image (l : Array α) : (image e l).toList = image e l.toList :=
  Array.toList_map

theorem push_image (l : Array α) (a : α) : (image e l).push (image e a) = image e (l.push a) :=
  Array.map_push.symm

theorem set_image (l : Array α) (i : Nat) (a : α) :
    (image e l).setIfInBounds i (image e a) = image e (l.setIfInBounds i a) :=
  Array.map_setIfInBounds.symm

theorem getElem?_image (l : Array α) (i : Nat) : (image e l)[i]? = image e l[i]? :=
  Array.getElem?_map

theorem extract_image (l : Array α) (i j : Nat) : (image e l).extract i j = image e (l.extract i j) := by
  simp [image_array]

theorem image_reverse (l : List α) : image e l.reverse = (image e l).reverse :=
  List.map_reverse

theorem image_toArray (l : List α) : image e l.toArray = (image e l).toArray :=
  List.map_toArray

end Arrays

/-! ## 2. Symbols, keys and values -/

namespace Symbol

@[simp] theorem same_image (s t : Symbol) : (image e s).same (image e t) = s.same t := by
  cases s <;> cases t <;> try rfl
  exact decide_eq_decide.mpr ⟨e.serial_injective, congrArg _⟩

@[simp] theorem text_image (s : Symbol) : (image e s).text = s.text := by
  cases s <;> rfl

end Symbol

namespace Key

@[simp] theorem image_string (name : String) : image e (string name) = string name := rfl

@[simp] theorem same_image (a b : Key) : (image e a).same (image e b) = a.same b := by
  cases a <;> cases b <;> try rfl
  exact Symbol.same_image _ _

@[simp] theorem isName_image (key : Key) (name : String) : (image e key).isName name = key.isName name := by
  cases key <;> rfl

@[simp] theorem name?_image (key : Key) : (image e key).name? = key.name? := by
  cases key <;> rfl

@[simp] theorem text_image (key : Key) : (image e key).text = key.text := by
  cases key with
  | string s => rfl
  | symbol s => exact s.text_image

end Key

namespace Value

@[simp] theorem image_undefined : image e undefined = undefined := rfl
@[simp] theorem image_null : image e null = null := rfl
@[simp] theorem image_boolean (b : Bool) : image e (boolean b) = boolean b := rfl
@[simp] theorem image_number (x : Float) : image e (number x) = number x := rfl
@[simp] theorem image_string (s : String) : image e (string s) = string s := rfl
@[simp] theorem image_symbol (s : Symbol) : image e (symbol s) = symbol (image e s) := rfl
@[simp] theorem image_object (id : ObjectId) : image e (object id) = object (e.object id) := rfl
@[simp] theorem image_ofNat (n : Nat) : image e (ofNat n) = ofNat n := rfl

theorem within_object {id : ObjectId} (hid : e.Open id) : Within e (object id) := hid

theorem within_undefined : Within e undefined := trivial

theorem within_ofNat (n : Nat) : Within e (ofNat n) := trivial

theorem within_number (x : Float) : Within e (number x) := trivial

theorem within_string (s : String) : Within e (string s) := trivial

@[simp] theorem isUndefined_image (v : Value) : (image e v).isUndefined = v.isUndefined := by
  cases v <;> rfl

@[simp] theorem isNullish_image (v : Value) : (image e v).isNullish = v.isNullish := by
  cases v <;> rfl

@[simp] theorem isObject_image (v : Value) : (image e v).isObject = v.isObject := by
  cases v <;> rfl

@[simp] theorem isString_image (v : Value) : (image e v).isString = v.isString := by
  cases v <;> rfl

@[simp] theorem truthy_image (v : Value) : (image e v).truthy = v.truthy := by
  cases v <;> rfl

theorem strictEquals_image {w : Value} (hv : Within e v) (hw : Within e w) :
    (image e v).strictEquals (image e w) = v.strictEquals w := by
  cases v <;> cases w <;> try rfl
  case symbol.symbol s t => exact s.same_image t
  case object.object a b =>
    exact decide_eq_decide.mpr ⟨e.object_injective (.inl hv) (.inl hw), congrArg _⟩

theorem sameValue_image {w : Value} (hv : Within e v) (hw : Within e w) :
    (image e v).sameValue (image e w) = v.sameValue w := by
  have h := strictEquals_image hv hw
  cases v <;> cases w <;> first | rfl | exact h

theorem sameValueZero_image {w : Value} (hv : Within e v) (hw : Within e w) :
    (image e v).sameValueZero (image e w) = v.sameValueZero w := by
  have h := strictEquals_image hv hw
  cases v <;> cases w <;> first | rfl | exact h

end Value

/-- An item of a list, `undefined` past its end. -/
theorem within_item {items : Array Value} (h : Within e items) (i : Nat) : Within e (items.getD i .undefined) := by
  rw [Array.getD_eq_getD_getElem?]
  cases hi : items[i]? with
  | none => exact trivial
  | some v => exact within_getElem? h i v hi

theorem getD_item_image (items : Array Value) (i : Nat) :
    (image e items).getD i .undefined = image e (items.getD i .undefined) := by
  rw [Array.getD_eq_getD_getElem?, Array.getD_eq_getD_getElem?, image_array, Array.getElem?_map]
  cases items[i]? <;> rfl

/-! ## 3. Properties -/

namespace Content

@[simp] theorem image_data (value : Value) (writable : Bool) :
    image e (data value writable) = data (image e value) writable := rfl

@[simp] theorem image_accessor (getter setter : Value) :
    image e (accessor getter setter) = accessor (image e getter) (image e setter) := rfl

end Content

namespace Property

@[simp] theorem content_image (p : Property) : (image e p).content = image e p.content := rfl

@[simp] theorem enumerable_image (p : Property) : (image e p).enumerable = p.enumerable := rfl

@[simp] theorem configurable_image (p : Property) : (image e p).configurable = p.configurable := rfl

@[simp] theorem image_mk (content : Content) (enumerable configurable : Bool) :
    image e (⟨content, enumerable, configurable⟩ : Property) = ⟨image e content, enumerable, configurable⟩ := rfl

@[simp] theorem image_ofData (value : Value) (writable enumerable configurable : Bool) :
    image e (data value writable enumerable configurable) = data (image e value) writable enumerable configurable := rfl

@[simp] theorem image_hidden (value : Value) : image e (hidden value) = hidden (image e value) := rfl

@[simp] theorem isAccessor_image (p : Property) : (image e p).isAccessor = p.isAccessor := by
  obtain ⟨content, enumerable, configurable⟩ := p
  cases content <;> rfl

@[simp] theorem isWritable_image (p : Property) : (image e p).isWritable = p.isWritable := by
  obtain ⟨content, enumerable, configurable⟩ := p
  cases content <;> rfl

@[simp] theorem value?_image (p : Property) : (image e p).value? = image e p.value? := by
  obtain ⟨content, enumerable, configurable⟩ := p
  cases content <;> rfl

theorem freeze_image (p : Property) : (image e p).freeze = image e p.freeze := by
  obtain ⟨content, enumerable, configurable⟩ := p
  cases content <;> rfl

theorem within_value? (hp : Within e p) : Within e p.value? := by
  obtain ⟨content, enumerable, configurable⟩ := p
  cases content with
  | data value writable => exact within_some.mpr hp
  | accessor getter setter => exact within_none

theorem within_freeze (hp : Within e p) : Within e p.freeze := by
  obtain ⟨content, enumerable, configurable⟩ := p
  cases content <;> exact hp

end Property

section

variable {α : Type} [Carried α]

theorem within_getD {o : Option α} (ho : Within e o) (ha : Within e a) : Within e (o.getD a) := by
  cases o with
  | none => exact ha
  | some b => exact within_some.mp ho

theorem getD_image (o : Option α) (a : α) : (image e o).getD (image e a) = image e (o.getD a) := by
  cases o <;> rfl

@[simp] theorem isSome_image (o : Option α) : (image e o).isSome = o.isSome := by
  cases o <;> rfl

@[simp] theorem isNone_image (o : Option α) : (image e o).isNone = o.isNone := by
  cases o <;> rfl

end

namespace Descriptor

@[simp] theorem value_image (d : Descriptor) : (image e d).value = image e d.value := rfl
@[simp] theorem getter_image (d : Descriptor) : (image e d).getter = image e d.getter := rfl
@[simp] theorem setter_image (d : Descriptor) : (image e d).setter = image e d.setter := rfl
@[simp] theorem writable_image (d : Descriptor) : (image e d).writable = d.writable := rfl
@[simp] theorem enumerable_image (d : Descriptor) : (image e d).enumerable = d.enumerable := rfl
@[simp] theorem configurable_image (d : Descriptor) : (image e d).configurable = d.configurable := rfl

@[simp] theorem isData_image (d : Descriptor) : (image e d).isData = d.isData := by
  simp [isData]

@[simp] theorem isAccessor_image (d : Descriptor) : (image e d).isAccessor = d.isAccessor := by
  simp [isAccessor]

/-- The value of a field that may be absent. -/
theorem getD_undefined_image (v : Option Value) : (image e v).getD .undefined = image e (v.getD .undefined) :=
  getD_image v .undefined

theorem complete_image (d : Descriptor) : (image e d).complete = image e d.complete := by
  unfold complete
  cases h : d.isAccessor <;> simp [h, getD_undefined_image]

theorem within_complete (hd : Within e d) : Within e d.complete := by
  change Within e d.complete.content
  unfold complete
  dsimp only
  split
  · exact ⟨within_getD hd.2.1 trivial, within_getD hd.2.2 trivial⟩
  · exact within_getD hd.1 trivial

end Descriptor

namespace Property

theorem overlay_image (p : Property) (d : Descriptor) :
    (image e p).overlay (image e d) = image e (p.overlay d) := by
  obtain ⟨content, enumerable, configurable⟩ := p
  cases content with
  | data value writable =>
    cases h : d.isAccessor <;> simp [overlay, h, getD_image, Descriptor.getD_undefined_image]
  | accessor getter setter =>
    cases h : d.isData <;> simp [overlay, h, getD_image, Descriptor.getD_undefined_image]

theorem within_overlay (hp : Within e p) (hd : Within e d) : Within e (p.overlay d) := by
  obtain ⟨content, enumerable, configurable⟩ := p
  obtain ⟨hvalue, hgetter, hsetter⟩ := hd
  cases content with
  | data value writable =>
    cases h : d.isAccessor <;> simp only [overlay, h]
    · exact within_getD hvalue hp
    · exact ⟨within_getD hgetter trivial, within_getD hsetter trivial⟩
  | accessor getter setter =>
    cases h : d.isData <;> simp only [overlay, h]
    · exact ⟨within_getD hgetter hp.1, within_getD hsetter hp.2⟩
    · exact within_getD hvalue trivial

theorem agrees_image {field : Option Value} (hfield : Within e field) (hv : Within e v) :
    agrees (image e field) (image e v) = agrees field v := by
  cases field with
  | none => rfl
  | some w => exact Value.sameValue_image (within_some.mp hfield) hv

theorem admits_image (hp : Within e p) (hd : Within e d) : (image e p).admits (image e d) = p.admits d := by
  obtain ⟨content, enumerable, configurable⟩ := p
  obtain ⟨hvalue, hgetter, hsetter⟩ := hd
  cases content with
  | data value writable => simp [admits, agrees_image hvalue hp]
  | accessor getter setter => simp [admits, agrees_image hgetter hp.1, agrees_image hsetter hp.2]

end Property

/-! ## 4. What objects hold -/

namespace Object

variable {o : Object}

@[simp] theorem properties_image (o : Object) : (image e o).properties = image e o.properties := rfl
@[simp] theorem prototype_image (o : Object) : (image e o).prototype = image e o.prototype := rfl
@[simp] theorem callable_image (o : Object) : (image e o).callable = image e o.callable := rfl
@[simp] theorem elements_image (o : Object) : (image e o).elements = image e o.elements := rfl
@[simp] theorem sort_image (o : Object) : (image e o).sort = o.sort := rfl
@[simp] theorem extensible_image (o : Object) : (image e o).extensible = o.extensible := rfl
@[simp] theorem frozen_image (o : Object) : (image e o).frozen = o.frozen := rfl
@[simp] theorem primitive_image (o : Object) : (image e o).primitive = image e o.primitive := rfl
@[simp] theorem mapEntries_image (o : Object) : (image e o).mapEntries = image e o.mapEntries := rfl
@[simp] theorem setEntries_image (o : Object) : (image e o).setEntries = image e o.setEntries := rfl
@[simp] theorem regex_image (o : Object) : (image e o).regex = o.regex := rfl

theorem within_default : Within e (default : Object) :=
  ⟨within_empty, within_none, within_none, within_none, within_none, within_none, within_none⟩

@[simp] theorem image_default : image e (default : Object) = default := by
  have h : image e (#[] : Array (Key × Property)) = #[] := by simp [image_array]
  exact congrArg (fun properties => ({ properties := properties } : Object)) h

@[simp] theorem find?_image (o : Object) (key : Key) : (image e o).find? (image e key) = o.find? key := by
  simp [find?, image_array, Function.comp_def]

theorem stored?_image (o : Object) (key : Key) :
    (image e o).stored? (image e key) = image e (o.stored? key) := by
  simp [stored?, image_array, image_option, Function.comp_def]

theorem within_stored? (ho : Within e o) (key : Key) : Within e (o.stored? key) := by
  intro p hp
  obtain ⟨entry, hentry, rfl⟩ := Option.map_eq_some_iff.mp hp
  exact (ho.properties entry (Array.mem_of_find?_eq_some hentry)).2

@[simp] theorem text?_image (o : Object) : (image e o).text? = o.text? := by
  simp only [text?, primitive_image, sort_image]
  cases o.primitive with
  | none => rfl
  | some v => cases v <;> rfl

@[simp] theorem isArray_image (o : Object) : (image e o).isArray = o.isArray := by
  simp [isArray]

theorem arrayProperty?_image (elements : Array Value) (frozen : Bool) (name : String) :
    arrayProperty? (image e elements) frozen name = image e (arrayProperty? elements frozen name) := by
  unfold arrayProperty?
  split
  · simp [image_array]
  · cases Text.index? name with
    | none => rfl
    | some i =>
      simp only [image_array, Array.getElem?_map, image_option, Option.map_map]
      rfl

theorem within_arrayProperty? (h : Within e elements) (frozen : Bool) (name : String) :
    Within e (arrayProperty? elements frozen name) := by
  unfold arrayProperty?
  split
  · exact within_some.mpr trivial
  · cases Text.index? name with
    | none => exact within_none
    | some i =>
      intro p hp
      obtain ⟨v, hv, rfl⟩ := Option.map_eq_some_iff.mp hp
      exact within_getElem? h i v hv

theorem textProperty?_image (s name : String) : image e (textProperty? s name) = textProperty? s name := by
  unfold textProperty?
  split
  · rfl
  · cases Text.index? name with
    | none => rfl
    | some i =>
      dsimp only
      split <;> rfl

theorem within_textProperty? (s name : String) : Within e (textProperty? s name) := by
  unfold textProperty?
  split
  · exact within_some.mpr trivial
  · cases Text.index? name with
    | none => exact within_none
    | some i =>
      dsimp only
      split
      · exact within_some.mpr trivial
      · exact within_none

theorem virtual?_image (o : Object) (name : String) : (image e o).virtual? name = image e (o.virtual? name) := by
  have htext (s : String) := (textProperty?_image (e := e) s name).symm
  unfold virtual?
  simp only [elements_image, frozen_image, text?_image]
  cases o.elements with
  | none => cases o.text? with
    | none => rfl
    | some s => exact htext s
  | some elements =>
    simp only [image_some, arrayProperty?_image]
    cases arrayProperty? elements o.frozen name with
    | some p => rfl
    | none => cases o.text? with
      | none => rfl
      | some s => exact htext s

theorem within_virtual? (ho : Within e o) (name : String) : Within e (o.virtual? name) := by
  unfold virtual?
  dsimp only
  split
  · rename_i p hp
    cases helements : o.elements with
    | none =>
      rw [helements] at hp
      cases hp
    | some elements =>
      rw [helements] at hp
      rw [← hp]
      exact within_arrayProperty? (ho.elements elements helements) o.frozen name
  · cases o.text? with
    | none => exact within_none
    | some s => exact within_textProperty? s name

theorem own?_image (o : Object) (key : Key) : (image e o).own? (image e key) = image e (o.own? key) := by
  cases key with
  | symbol s => exact stored?_image o (.symbol s)
  | string name =>
    change (image e o).own? (.string name) = image e (o.own? (.string name))
    simp only [own?, virtual?_image]
    cases o.virtual? name with
    | some p => rfl
    | none => exact stored?_image o (.string name)

theorem within_own? (ho : Within e o) (key : Key) : Within e (o.own? key) := by
  cases key with
  | symbol s => exact within_stored? ho (.symbol s)
  | string name =>
    have hvirtual := within_virtual? ho name
    simp only [own?]
    cases h : o.virtual? name with
    | some p =>
      rw [h] at hvirtual
      exact hvirtual
    | none => exact within_stored? ho (.string name)

@[simp] theorem hasOwn_image (o : Object) (key : Key) : (image e o).hasOwn (image e key) = o.hasOwn key := by
  rw [hasOwn, own?_image, isSome_image, hasOwn]

theorem ownValue?_image (o : Object) (name : String) :
    (image e o).ownValue? name = image e (o.ownValue? name) := by
  unfold ownValue?
  rw [show Key.string name = image e (Key.string name) from rfl, own?_image]
  cases o.own? (image e (Key.string name)) with
  | none => rfl
  | some p => exact p.value?_image

theorem within_ownValue? (ho : Within e o) (name : String) : Within e (o.ownValue? name) := by
  have hown := within_own? ho (.string name)
  unfold ownValue?
  cases h : o.own? (.string name) with
  | none => exact within_none
  | some p =>
    rw [h] at hown
    exact Property.within_value? (within_some.mp hown)

/-! ## 5. Changes of objects -/

/-- The name of a stored property as a key that stays. -/
theorem find?_image_name (o : Object) (name : String) :
    (image e o).find? (.string name) = o.find? (.string name) :=
  find?_image o (.string name)

theorem setElement_image (elements : Array Value) (i : Nat) (v : Value) :
    setElement (image e elements) i (image e v) = image e (setElement elements i v) := by
  unfold setElement
  simp only [image_array, Array.size_map]
  split
  · rw [Array.map_setIfInBounds]
  · rw [Array.map_push, Array.map_append, Array.map_replicate]
    rfl

theorem within_setElement (h : Within e elements) (i : Nat) (hv : Within e v) : Within e (setElement elements i v) := by
  unfold setElement
  split
  · exact within_set h i hv
  · exact within_push (within_appendArray h (within_replicate trivial _)) hv

theorem resize_image (elements : Array Value) (size : Nat) :
    resize (image e elements) size = image e (resize elements size) := by
  unfold resize
  simp only [image_array, Array.size_map]
  split
  · simp [Array.take]
  · rw [Array.map_append, Array.map_replicate]
    rfl

theorem within_resize (h : Within e elements) (size : Nat) : Within e (resize elements size) := by
  unfold resize
  split
  · exact within_extract h 0 size
  · exact within_appendArray h (within_replicate trivial _)

theorem dropElement_image (elements : Array Value) (i : Nat) :
    dropElement (image e elements) i = image e (dropElement elements i) := by
  unfold dropElement
  simp only [image_array, Array.size_map]
  split
  · rw [Array.map_pop]
  · rw [Array.map_setIfInBounds]
    rfl

theorem within_dropElement (h : Within e elements) (i : Nat) : Within e (dropElement elements i) := by
  unfold dropElement
  split
  · exact within_pop h
  · exact within_set h i trivial

/-- An object with other elements is moved with them. -/
theorem image_withElements (o : Object) (elements : Array Value) :
    image e { o with elements := some elements } = { image e o with elements := some (image e elements) } := rfl

theorem within_withElements (ho : Within e o) {elements : Array Value} (h : Within e elements) :
    Within e { o with elements := some elements } :=
  { ho with elements := within_some.mpr h }

/-- An object with other properties is moved with them. -/
theorem image_withProperties (o : Object) (properties : Array (Key × Property)) :
    image e { o with properties := properties } = { image e o with properties := image e properties } := rfl

theorem within_withProperties (ho : Within e o) {properties : Array (Key × Property)}
    (h : Within e properties) : Within e { o with properties := properties } :=
  { ho with properties := h }

theorem store_image (o : Object) (key : Key) (p : Property) :
    (image e o).store (image e key) (image e p) = image e (o.store key p) := by
  simp only [store, find?_image]
  split
  · simp only [image_withProperties, properties_image, image_array, Array.map_setIfInBounds, image_pair]
  · simp only [image_withProperties, properties_image, image_array, Array.map_push, image_pair]

theorem within_store (ho : Within e o) (key : Key) (hp : Within e p) : Within e (o.store key p) := by
  unfold store
  split
  · exact within_withProperties ho (within_set ho.properties _ ⟨trivial, hp⟩)
  · exact within_withProperties ho (within_push ho.properties ⟨trivial, hp⟩)

theorem insert_image (o : Object) (name : String) (p : Property) :
    (image e o).insert name (image e p) = image e (o.insert name p) := by
  have hstore : (image e o).store (.string name) (image e p) = image e (o.store (.string name) p) :=
    store_image o (.string name) p
  unfold insert
  simp only [elements_image, Property.content_image, hstore]
  cases o.elements with
  | none => rfl
  | some elements =>
    cases Text.index? name with
    | none => rfl
    | some i =>
      cases p.content with
      | accessor getter setter => rfl
      | data value writable =>
        simp only [image_some, Content.image_data, setElement_image]
        rw [show (image e elements).size = elements.size from Array.size_map]
        split <;> rfl

theorem within_insert (ho : Within e o) (name : String) (hp : Within e p) : Within e (o.insert name p) := by
  unfold insert
  split
  · rename_i elements i value writable helements hindex hcontent
    split
    · have hvalue : Within e value := by
        change Within e p.content at hp
        rw [hcontent] at hp
        exact hp
      exact within_withElements ho (within_setElement (ho.elements elements helements) i hvalue)
    · exact within_store ho _ hp
  · exact within_store ho _ hp

theorem insertValue_image (o : Object) (name : String) (v : Value) :
    (image e o).insertValue name (image e v) = image e (o.insertValue name v) :=
  insert_image o name (.ordinary v)

theorem within_insertValue (ho : Within e o) (name : String) (hv : Within e v) : Within e (o.insertValue name v) :=
  within_insert ho name hv

theorem insertHidden_image (o : Object) (name : String) (v : Value) :
    (image e o).insertHidden name (image e v) = image e (o.insertHidden name v) :=
  insert_image o name (.hidden v)

theorem within_insertHidden (ho : Within e o) (name : String) (hv : Within e v) : Within e (o.insertHidden name v) :=
  within_insert ho name hv

/-- A stored property in its place. -/
theorem getElem?_properties_image (o : Object) (i : Nat) :
    (image e o).properties[i]? = image e o.properties[i]? := by
  simp [image_array, image_option]

theorem within_getElem?_properties (ho : Within e o) {i : Nat} {entry : Key × Property}
    (h : o.properties[i]? = some entry) : Within e entry.2 :=
  (ho.properties entry (Array.mem_of_getElem? h)).2

theorem defineStored_image (ho : Within e o) (key : Key) (hd : Within e d) :
    (image e o).defineStored (image e key) (image e d) = image e (o.defineStored key d) := by
  simp only [defineStored, find?_image, getElem?_properties_image]
  cases o.find? key with
  | some i =>
    dsimp only
    cases h : o.properties[i]? with
    | none => rfl
    | some entry =>
      have hentry := within_getElem?_properties ho h
      simp only [image_some, snd_image, Property.configurable_image, Property.admits_image hentry hd]
      split
      · rfl
      · simp only [image_pair, image_withProperties, properties_image, image_array, Array.map_setIfInBounds,
          Property.overlay_image, image_bool]
  | none =>
    simp only [extensible_image]
    split
    · simp only [image_pair, image_withProperties, properties_image, image_array, Array.map_push,
        Descriptor.complete_image, image_bool]
      rfl
    · rfl

theorem within_defineStored (ho : Within e o) (key : Key) (hd : Within e d) : Within e (o.defineStored key d).1 := by
  unfold defineStored
  split
  · split
    · rename_i k current hcurrent
      split
      · exact ho
      · have hproperty := Property.within_overlay (within_getElem?_properties ho hcurrent) hd
        exact within_withProperties ho (within_set ho.properties _ ⟨trivial, hproperty⟩)
    · exact ho
  · split
    · exact within_withProperties ho (within_push ho.properties ⟨trivial, Descriptor.within_complete hd⟩)
    · exact ho

theorem defineLength_image (o : Object) (elements : Array Value) (d : Descriptor) :
    (image e o).defineLength (image e elements) (image e d) = image e (o.defineLength elements d) := by
  unfold defineLength
  simp only [Descriptor.value_image, Descriptor.isAccessor_image, resize_image]
  cases d.value with
  | none => rfl
  | some v =>
    cases v with
    | number x =>
      dsimp only [image_some, image]
      split <;> rfl
    | _ => rfl

theorem within_defineLength (ho : Within e o) (h : Within e elements) (d : Descriptor) :
    Within e (o.defineLength elements d).1 := by
  unfold defineLength
  split
  · split
    · exact within_withElements ho (within_resize h _)
    · exact ho
  · exact ho

theorem defineNamed_image (ho : Within e o) (name : String) (hd : Within e d) :
    (image e o).defineNamed name (image e d) = image e (o.defineNamed name d) := by
  have hstored := defineStored_image ho (.string name) hd
  unfold defineNamed
  rw [text?_image]
  cases o.text? with
  | none => exact hstored
  | some s =>
    dsimp only
    split
    · rfl
    · exact hstored

theorem within_defineNamed (ho : Within e o) (name : String) (hd : Within e d) : Within e (o.defineNamed name d).1 := by
  unfold defineNamed
  split
  · split
    · exact ho
    · exact within_defineStored ho _ hd
  · exact within_defineStored ho _ hd

theorem defineElement_image (ho : Within e o) (elements : Array Value) (name : String) (i : Nat) (hd : Within e d) :
    (image e o).defineElement (image e elements) name i (image e d) =
      image e (o.defineElement elements name i d) := by
  have hsize : (image e elements).size = elements.size := Array.size_map
  simp only [defineElement, find?_image_name, Descriptor.isAccessor_image, hsize, extensible_image,
    defineNamed_image ho name hd, Descriptor.value_image, Descriptor.getD_undefined_image, setElement_image]
  split
  · rfl
  split
  · rfl
  split
  · split <;> rfl
  · rfl

theorem within_defineElement (ho : Within e o) (h : Within e elements) (name : String) (i : Nat) (hd : Within e d) :
    Within e (o.defineElement elements name i d).1 := by
  unfold defineElement
  split
  · exact within_defineNamed ho name hd
  split
  · exact ho
  split
  · split
    · exact ho
    · exact within_withElements ho (within_setElement h i (within_getD hd.1 trivial))
  · exact within_defineNamed ho name hd

theorem define_image (ho : Within e o) (key : Key) (hd : Within e d) :
    (image e o).define (image e key) (image e d) = image e (o.define key d) := by
  cases key with
  | symbol s => exact defineStored_image ho (.symbol s) hd
  | string name =>
    change (image e o).define (.string name) (image e d) = _
    unfold define
    simp only [elements_image, frozen_image, defineNamed_image ho name hd]
    cases o.elements with
    | none => rfl
    | some elements =>
      simp only [image_some, defineLength_image]
      split
      · split <;> rfl
      · cases Text.index? name with
        | none => rfl
        | some i =>
          simp only [defineElement_image ho elements name i hd]
          split <;> rfl

theorem within_define (ho : Within e o) (key : Key) (hd : Within e d) : Within e (o.define key d).1 := by
  unfold define
  split
  · exact within_defineStored ho _ hd
  · split
    · exact within_defineNamed ho _ hd
    · rename_i elements helements
      have h := ho.elements elements helements
      split
      · split
        · exact ho
        · exact within_defineLength ho h d
      · split
        · exact within_defineNamed ho _ hd
        · split
          · exact ho
          · exact within_defineElement ho h _ _ hd

/-- Moving a list and taking an entry out of it can be done in either order. -/
theorem map_eraseIdx {α β : Type} (f : α → β) : ∀ (l : List α) (i : Nat),
    (l.map f).eraseIdx i = (l.eraseIdx i).map f
  | [], _ => rfl
  | _ :: _, 0 => rfl
  | a :: l, i + 1 => congrArg (f a :: ·) (map_eraseIdx f l i)

theorem deleteStored_image (o : Object) (key : Key) :
    (image e o).deleteStored (image e key) = image e (o.deleteStored key) := by
  simp only [deleteStored, find?_image, getElem?_properties_image]
  cases o.find? key with
  | none => rfl
  | some i =>
    dsimp only
    cases o.properties[i]? with
    | none => rfl
    | some entry =>
      simp only [image_some, snd_image, Property.configurable_image]
      split
      · have herase : (image e o.properties).eraseIdxIfInBounds i =
            image e (o.properties.eraseIdxIfInBounds i) := by
          apply Array.toList_inj.mp
          simp [image_array, map_eraseIdx]
        simp only [image_pair, image_withProperties, properties_image, image_bool, herase]
      · rfl

theorem within_deleteStored (ho : Within e o) (key : Key) : Within e (o.deleteStored key).1 := by
  unfold deleteStored
  split
  · split
    · split
      · refine within_withProperties ho fun entry hentry => ho.properties entry ?_
        rw [← Array.mem_toList_iff, Array.toList_eraseIdxIfInBounds] at hentry
        exact Array.mem_toList_iff.mp (List.mem_of_mem_eraseIdx hentry)
      · exact ho
    · exact ho
  · exact ho

theorem deleteNamed_image (o : Object) (name : String) :
    (image e o).deleteNamed name = image e (o.deleteNamed name) := by
  have hstored : (image e o).deleteStored (.string name) = image e (o.deleteStored (.string name)) :=
    deleteStored_image o (.string name)
  have hown : (image e o).hasOwn (.string name) = o.hasOwn (.string name) := hasOwn_image o (.string name)
  unfold deleteNamed
  rw [text?_image, hstored, hown]
  cases o.text? with
  | none => rfl
  | some s =>
    dsimp only
    split <;> rfl

theorem within_deleteNamed (ho : Within e o) (name : String) : Within e (o.deleteNamed name).1 := by
  unfold deleteNamed
  split
  · split
    · exact ho
    · exact within_deleteStored ho _
  · exact within_deleteStored ho _

theorem delete_image (o : Object) (key : Key) :
    (image e o).delete (image e key) = image e (o.delete key) := by
  cases key with
  | symbol s => exact deleteStored_image o (.symbol s)
  | string name =>
    change (image e o).delete (.string name) = _
    unfold delete
    simp only [elements_image, frozen_image, deleteNamed_image]
    cases o.elements with
    | none => rfl
    | some elements =>
      simp only [image_some]
      split
      · rfl
      · cases Text.index? name with
        | none => rfl
        | some i =>
          simp only [dropElement_image]
          rw [show (image e elements).size = elements.size from Array.size_map]
          split
          · rfl
          · split <;> rfl

theorem within_delete (ho : Within e o) (key : Key) : Within e (o.delete key).1 := by
  unfold delete
  split
  · exact within_deleteStored ho _
  · split
    · exact within_deleteNamed ho _
    · rename_i elements helements
      split
      · exact ho
      · split
        · exact within_deleteNamed ho _
        · split
          · exact ho
          · split
            · exact within_withElements ho (within_dropElement (ho.elements elements helements) _)
            · exact within_deleteNamed ho _

theorem freeze_image (o : Object) : (image e o).freeze = image e o.freeze := by
  have hproperties : (image e o.properties).map (fun entry => (entry.1, entry.2.freeze)) =
      image e (o.properties.map fun entry => (entry.1, entry.2.freeze)) := by
    simp [image_array, Property.freeze_image]
  exact congrArg (fun properties =>
    { image e o with extensible := false, frozen := true, properties := properties }) hproperties

theorem within_freeze (ho : Within e o) : Within e o.freeze := by
  refine within_withProperties (o := { o with extensible := false, frozen := true }) { ho with } ?_
  intro entry hentry
  obtain ⟨old, hold, rfl⟩ := Array.mem_map.mp hentry
  exact ⟨trivial, Property.within_freeze (ho.properties old hold).2⟩

/-! ## 6. Keys -/

@[simp] theorem indexKeys_image (o : Object) : (image e o).indexKeys = o.indexKeys := by
  simp only [indexKeys, properties_image, toList_image, image_list, List.filterMap_map, Function.comp_def, fst_image,
    Key.name?_image]

@[simp] theorem nameKeys_image (o : Object) : (image e o).nameKeys = o.nameKeys := by
  simp only [nameKeys, properties_image, toList_image, image_list, List.filterMap_map, Function.comp_def, fst_image,
    Key.name?_image]

theorem symbolKeys_image (o : Object) : (image e o).symbolKeys = image e o.symbolKeys := by
  simp only [symbolKeys, properties_image, toList_image, image_list, List.filterMap_map, List.map_filterMap]
  congr 1
  funext entry
  obtain ⟨key, p⟩ := entry
  cases key <;> rfl

@[simp] theorem stringKeys_image (o : Object) : (image e o).stringKeys = o.stringKeys := by
  have hsize : (image e o.elements).map Array.size = o.elements.map Array.size := by
    cases o.elements with
    | none => rfl
    | some elements => exact congrArg some Array.size_map
  simp only [stringKeys, elements_image, hsize, isSome_image, text?_image, indexKeys_image, nameKeys_image]

theorem ownKeys_image (o : Object) : (image e o).ownKeys = image e o.ownKeys := by
  simp only [ownKeys, stringKeys_image, symbolKeys_image, image_list, List.map_append, List.map_map]
  rfl

@[simp] theorem isEnumerable_image (o : Object) (key : Key) :
    (image e o).isEnumerable (image e key) = o.isEnumerable key := by
  unfold isEnumerable
  rw [own?_image]
  cases o.own? key <;> rfl

@[simp] theorem isEnumerable_image_name (o : Object) (name : String) :
    (image e o).isEnumerable (.string name) = o.isEnumerable (.string name) :=
  isEnumerable_image o (.string name)

@[simp] theorem listedNames_image (o : Object) : (image e o).listedNames = o.listedNames := by
  simp only [listedNames, stringKeys_image, isEnumerable_image_name]

@[simp] theorem enumerableNames_image (o : Object) : (image e o).enumerableNames = o.enumerableNames := by
  simp [enumerableNames]

theorem enumerableKeys_image (o : Object) : (image e o).enumerableKeys = image e o.enumerableKeys := by
  simp only [enumerableKeys, ownKeys_image, image_list, List.filter_map]
  congr 2
  funext key
  exact isEnumerable_image o key

@[simp] theorem name_image (c : Callable) : (image e c).name = c.name := by
  cases c <;> rfl

@[simp] theorem summary_image (o : Object) : (image e o).summary = o.summary := by
  simp only [summary, callable_image, elements_image, sort_image]
  cases o.callable with
  | some c => exact congrArg (fun name => "[Function: " ++ name ++ "]") (name_image c)
  | none =>
    cases o.elements with
    | none => rfl
    | some elements =>
      simp only [image_none, image_some]
      rw [show (image e elements).size = elements.size from Array.size_map]

end Object

end GuestScript
