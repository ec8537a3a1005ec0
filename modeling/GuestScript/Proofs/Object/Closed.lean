import GuestScript.Proofs.Object.Keys
import GuestScript.Proofs.Object.Write

/-!
# Closed and frozen objects

An object that is *closed* takes no new property, and one that is *frozen* lets none of its properties change. Both are
asked by every change of the sort `Asked`, with one exception: a change of the elements in place and one of the length do
not ask whether an array is closed (`Resizes`).

* `Takes` lists what a change that asks can make of a closed object.
* `Takes.own?_eq_none`: no key becomes its own, unless it gets more elements.
* `Rigid.shows`: a frozen object shows the same keys and the same properties as before, unless one of its texts is
  taken away by a change of a time.
-/

namespace GuestScript

variable {p : Property} {es : Array Value} {name : String}

theorem Key.name?_congr {a b : Key} (h : a.same b = true) : a.name? = b.name? := by
  cases a <;> cases b <;> simp_all [same, name?]

namespace Property

/-- Whether a property has the same attributes as another one, and holds the same values. -/
structure Same (p q : Property) : Prop where
  enumerable : q.enumerable = p.enumerable
  configurable : q.configurable = p.configurable
  writable : q.isWritable = p.isWritable
  value : Option.Rel (fun v w => w.sameValue v = true) p.value? q.value?
  getter : Option.Rel (fun v w => w.sameValue v = true) p.getter? q.getter?
  setter : Option.Rel (fun v w => w.sameValue v = true) p.setter? q.setter?

/-- Whether a property is fixed in every respect. -/
structure IsFixed (p : Property) : Prop where
  configurable : p.configurable = false
  writable : p.isWritable = false

theorem isFixed_freeze (p : Property) : p.freeze.IsFixed := by
  obtain ⟨content, enumerable, configurable⟩ := p
  cases content <;> exact ⟨rfl, rfl⟩

theorem IsFixed.freeze_eq (h : p.IsFixed) : p.freeze = p := by
  obtain ⟨content, enumerable, configurable⟩ := p
  obtain ⟨rfl, hw⟩ := h
  cases content with
  | data value writable =>
    obtain rfl : writable = false := hw
    rfl
  | accessor getter setter => rfl

namespace Keeps

variable {p q : Property}

/-- What becomes of a fixed property is fixed. -/
theorem isFixed (h : p.Keeps q) (hp : p.IsFixed) : q.IsFixed := by
  refine ⟨h.configurable, ?_⟩
  cases ha : p.isAccessor with
  | false => exact h.readOnly ha hp.writable
  | true =>
    have hq := h.kind.trans ha
    obtain ⟨content, enumerable, configurable⟩ := q
    cases content with
    | data value writable => cases hq
    | accessor getter setter => rfl

/-- One of the fields of a property that is there before a change is there after it, and the other way round. -/
theorem rel_field {field : Property → Option Value} (hkind : q.isAccessor = p.isAccessor)
    (hfield : ∀ r s : Property, s.isAccessor = r.isAccessor → (field s).isSome = (field r).isSome)
    (hkeeps : ∀ v, field p = some v → ∃ w, field q = some w ∧ w.sameValue v = true) :
    Option.Rel (fun v w => w.sameValue v = true) (field p) (field q) := by
  cases hp : field p with
  | none =>
    have hnone := hfield p q hkind
    rw [hp, Option.isSome_none, Option.isSome_eq_false_iff, Option.isNone_iff_eq_none] at hnone
    rw [hnone]
    exact .none
  | some v =>
    obtain ⟨w, hq, hsame⟩ := hkeeps v hp
    rw [hq]
    exact .some hsame

/-- A fixed property stays the same. -/
theorem same (h : p.Keeps q) (hp : p.IsFixed) : p.Same q where
  enumerable := h.enumerable
  configurable := h.configurable.trans hp.configurable.symm
  writable := (h.isFixed hp).writable.trans hp.writable.symm
  value := by
    refine rel_field h.kind (fun r s hkind => ?_) (h.value hp.writable)
    unfold isAccessor at hkind
    unfold value?
    split at hkind <;> split at hkind <;> simp_all
  getter := by
    refine rel_field h.kind (fun r s hkind => ?_) h.getter
    unfold isAccessor at hkind
    unfold getter?
    split at hkind <;> split at hkind <;> simp_all
  setter := by
    refine rel_field h.kind (fun r s hkind => ?_) h.setter
    unfold isAccessor at hkind
    unfold setter?
    split at hkind <;> split at hkind <;> simp_all

end Keeps

/-- A change that a property admits names the fields of one kind. -/
theorem isProper_of_admits {d : Descriptor} (h : p.admits d = true) : d.IsProper := by
  rintro ⟨hdata, haccessor⟩
  obtain ⟨content, enumerable, configurable⟩ := p
  cases content <;> simp [admits, hdata, haccessor] at h

end Property

namespace Object

/-! ## 1. What a closed object takes -/

/-- Changes that do not ask whether an array is closed: those of its elements in place, and those of its length. -/
inductive Resizes : {α : Type} → (Object → Object × α) → Prop where
  | inPlace {α : Type} (f : Array Value → Array Value × α) : Resizes fun o => o.changeElements f
  | length (d : Descriptor) : Resizes fun o => o.define (.string "length") d

/-- Changes of the time of a date. -/
def Retimes {α : Type} (f : Object → Object × α) : Prop :=
  ∃ t : Float, ∀ o, (f o).1 = { o with primitive := some (.number t) }

/-- What can become of a closed object that is asked. It is said whether it may get more elements, and whether it may
get another time. -/
inductive Takes (o : Object) (resizes retimes : Prop) : Object → Prop where
  | same : Takes o resizes retimes o
  | relinked (prototype : Option ObjectId) : Takes o resizes retimes { o with prototype := prototype }
  /-- A property is changed as far as it admits that. -/
  | overlaid {front back : List (Key × Property)} {e : Key × Property} (key : Key) (d : Descriptor)
      (hsplit : o.properties.toList = front ++ e :: back) (hkey : e.1.same key = true)
      (hadmits : e.2.configurable = true ∨ e.2.admits d = true) :
      Takes o resizes retimes { o with properties := ⟨front ++ (key, e.2.overlay d) :: back⟩ }
  | removed {front back : List (Key × Property)} {e : Key × Property}
      (hsplit : o.properties.toList = front ++ e :: back) (hconfigurable : e.2.configurable = true) :
      Takes o resizes retimes { o with properties := ⟨front ++ back⟩ }
  | resized {es es' : Array Value} (hes : o.elements = some es) (hfrozen : o.frozen = false)
      (hsize : es'.size ≤ es.size ∨ resizes) : Takes o resizes retimes { o with elements := some es' }
  | frozen : Takes o resizes retimes o.freeze
  | entries (entries : Option (Array (Option (Value × Value)))) (members : Option (Array (Option Value))) :
      Takes o resizes retimes { o with mapEntries := entries, setEntries := members }
  | retimed (t : Float) (hretimes : retimes) : Takes o resizes retimes { o with primitive := some (.number t) }

section

variable {o : Object} {resizes retimes : Prop}

theorem takes_defineStored (hclosed : o.extensible = false) (key : Key) (d : Descriptor) :
    o.Takes resizes retimes (o.defineStored key d).1 := by
  rcases o.defineStored_cases key d with ⟨-, hdefine⟩ | ⟨front, e, back, hsplit, hkey, -, hdefine⟩
  · rw [hdefine, hclosed]
    exact .same
  · rw [hdefine]
    split
    · exact .same
    · rename_i hadmits
      refine .overlaid key d hsplit hkey ?_
      simpa [or_iff_not_imp_left] using hadmits

theorem takes_defineNamed (hclosed : o.extensible = false) (name : String) (d : Descriptor) :
    o.Takes resizes retimes (o.defineNamed name d).1 := by
  unfold defineNamed
  split
  · split
    · exact .same
    · exact takes_defineStored hclosed _ d
  · exact takes_defineStored hclosed _ d

theorem takes_defineElement (hclosed : o.extensible = false) (hes : o.elements = some es) (hfrozen : o.frozen = false)
    (name : String) (i : Nat) (d : Descriptor) :
    o.Takes resizes retimes (o.defineElement es name i d).1 := by
  unfold defineElement
  split
  · exact takes_defineNamed hclosed name d
  split
  · exact .same
  split
  · split
    · exact .same
    · -- a closed array only takes a value for an element that it has
      rename_i hindex
      have hlt : i < es.size := by simpa [hclosed] using hindex
      refine .resized hes hfrozen (.inl ?_)
      rw [setElement, if_pos hlt]
      exact Nat.le_of_eq Array.size_setIfInBounds
  · exact takes_defineNamed hclosed name d

theorem takes_defineLength (hes : o.elements = some es) (hfrozen : o.frozen = false) (d : Descriptor)
    (hresizes : resizes) : o.Takes resizes retimes (o.defineLength es d).1 := by
  unfold defineLength
  split
  · split
    · exact .resized hes hfrozen (.inr hresizes)
    · exact .same
  · exact .same

theorem takes_define (hclosed : o.extensible = false) (key : Key) (d : Descriptor)
    (hresizes : key = .string "length" → resizes) : o.Takes resizes retimes (o.define key d).1 := by
  cases key with
  | symbol s => exact takes_defineStored hclosed _ d
  | string name =>
    simp only [define]
    split
    · exact takes_defineNamed hclosed name d
    rename_i es hes
    split
    · rename_i hname
      split
      · exact .same
      · rename_i hfrozen
        exact takes_defineLength hes (by simpa using hfrozen) d (hresizes (congrArg _ (beq_iff_eq.mp hname)))
    split
    · exact takes_defineNamed hclosed name d
    split
    · exact .same
    · rename_i hfrozen
      exact takes_defineElement hclosed hes (by simpa using hfrozen) name _ d

theorem takes_deleteStored (o : Object) (key : Key) : o.Takes resizes retimes (o.deleteStored key).1 := by
  rcases o.deleteStored_cases key with ⟨-, hdelete⟩ | ⟨front, e, back, hsplit, -, -, hdelete⟩
  · rw [hdelete]
    exact .same
  · rw [hdelete]
    split
    · exact .removed hsplit ‹_›
    · exact .same

theorem takes_deleteNamed (o : Object) (name : String) : o.Takes resizes retimes (o.deleteNamed name).1 := by
  unfold deleteNamed
  split
  · split
    · exact .same
    · exact o.takes_deleteStored _
  · exact o.takes_deleteStored _

theorem takes_delete (o : Object) (key : Key) : o.Takes resizes retimes (o.delete key).1 := by
  cases key with
  | symbol s => exact o.takes_deleteStored _
  | string name =>
    simp only [delete]
    split
    · exact o.takes_deleteNamed name
    rename_i es hes
    split
    · exact .same
    split
    · exact o.takes_deleteNamed name
    split
    · exact .same
    rename_i hfrozen
    split
    · refine .resized hes (by simpa using hfrozen) (.inl ?_)
      unfold dropElement
      split <;> simp
    · exact o.takes_deleteNamed name

/-- **What a change that asks makes of a closed object.** -/
theorem Asked.takes {α : Type} {f : Object → Object × α} (hf : Asked f) (hclosed : o.extensible = false)
    (hresizes : Resizes f → resizes) (hretimes : Retimes f → retimes) : o.Takes resizes retimes (f o).1 := by
  cases hf with
  | define key d => exact takes_define hclosed key d fun hkey => hresizes (hkey ▸ .length d)
  | delete key => exact o.takes_delete key
  | freeze => exact .frozen
  | close =>
    have hsame : { o with extensible := false } = o := by rw [← hclosed]
    exact hsame.symm ▸ .same
  | elements f =>
    dsimp only [changeElements]
    split
    · exact .same
    · rename_i hchange
      simp only [Bool.or_eq_true, Option.isNone_iff_eq_none, not_or, Bool.not_eq_true] at hchange
      obtain ⟨es, hes⟩ := Option.ne_none_iff_exists'.mp hchange.2
      exact .resized hes hchange.1 (.inr (hresizes (.inPlace f)))
  | entries hf =>
    rw [(hf o).rest]
    exact .entries _ _
  | clear => exact .entries _ _
  | time t => exact .retimed t (hretimes ⟨t, fun _ => rfl⟩)

end

/-! ## 2. Closed objects -/

/-- How many elements an object has. -/
def elementCount (o : Object) : Nat :=
  (o.elements.map Array.size).getD 0

/-- A name is virtual if it is one of the elements or of the text. -/
theorem virtual?_isSome_eq (o : Object) (name : String) : (o.virtual? name).isSome =
    ((o.elements.any fun es => (arrayProperty? es o.frozen name).isSome) ||
      o.text?.any fun s => (textProperty? s name).isSome) := by
  unfold virtual?
  cases o.elements with
  | none => cases o.text? <;> rfl
  | some es =>
    dsimp only [Option.any_some]
    cases arrayProperty? es o.frozen name with
    | some p => rfl
    | none => cases o.text? <;> rfl

/-- With fewer elements there are fewer names, whether the array is frozen or not. -/
theorem isSome_arrayProperty?_mono {es' : Array Value} {frozen frozen' : Bool} (h : es'.size ≤ es.size)
    (hsome : (arrayProperty? es' frozen' name).isSome = true) :
    (arrayProperty? es frozen name).isSome = true := by
  unfold arrayProperty? at hsome ⊢
  split
  · rfl
  · rename_i hname
    rw [if_neg hname] at hsome
    split at hsome
    · simp only [Option.isSome_map, isSome_getElem?] at hsome ⊢
      exact Nat.lt_of_lt_of_le hsome h
    · cases hsome

/-- A key is an own one if it is virtual or stored. -/
theorem hasOwn_eq_or (o : Object) (key : Key) : o.hasOwn key =
    ((key.name?.any fun name => (o.virtual? name).isSome) || holds o.keys key) := by
  unfold hasOwn own?
  cases key with
  | symbol s => exact stored?_isSome o _
  | string name =>
    dsimp only [Key.name?, Option.any_some]
    rw [← stored?_isSome]
    cases o.virtual? name <;> rfl

namespace Takes

variable {o o' : Object} {resizes retimes : Prop}

section

variable (h : o.Takes resizes retimes o')

include h

theorem extensible (hclosed : o.extensible = false) : o'.extensible = false := by
  cases h with
  | frozen => rfl
  | _ => exact hclosed

/-- No key is stored that was not stored before. -/
theorem stored {key : Key} (hkey : holds o'.keys key = true) : holds o.keys key = true := by
  cases h with
  | overlaid key' d hsplit hsame _ =>
    refine (SameKeys.holds_eq ?_ key).trans hkey
    simpa [keys, hsplit] using forall₂_same_replace hsame
  | removed hsplit _ =>
    simp only [keys, hsplit, List.map_append, List.map_cons, holds_append] at hkey ⊢
    rw [Bool.or_eq_true] at hkey ⊢
    refine hkey.imp_right fun hback => ?_
    rw [holds, List.any_cons, Bool.or_eq_true]
    exact .inr hback
  | frozen => simpa [keys, freeze, Function.comp_def] using hkey
  | same | relinked | resized | entries | retimed => exact hkey

/-- A name that is virtual was virtual before, if there are no more elements than before. -/
theorem virtual (hcount : o'.elementCount ≤ o.elementCount) (hname : (o'.virtual? name).isSome = true) :
    (o.virtual? name).isSome = true := by
  rw [virtual?_isSome_eq, Bool.or_eq_true] at hname ⊢
  cases h with
  | resized hes hfrozen hsize =>
    have hle := hcount
    simp only [elementCount, hes, Option.map_some, Option.getD_some] at hle
    rw [hes]
    exact hname.imp_left (isSome_arrayProperty?_mono hle)
  | frozen =>
    refine hname.imp_left fun hname => ?_
    change (o.elements.any fun es => (arrayProperty? es true name).isSome) = true at hname
    cases helements : o.elements with
    | none => rw [helements] at hname; cases hname
    | some es =>
      rw [helements] at hname
      exact isSome_arrayProperty?_mono (Nat.le_refl _) hname
  | retimed t _ => exact hname.imp_right nofun
  | same | relinked | overlaid | removed | entries => exact hname

/-- **A closed object gets no new key**, unless it gets more elements. -/
theorem hasOwn (hcount : o'.elementCount ≤ o.elementCount) {key : Key} (hkey : o'.hasOwn key = true) :
    o.hasOwn key = true := by
  rw [hasOwn_eq_or, Bool.or_eq_true] at hkey ⊢
  refine hkey.imp (fun hvirtual => ?_) h.stored
  cases key with
  | symbol s => cases hvirtual
  | string name => exact h.virtual hcount hvirtual

/-- Only a change of the time takes the text from a wrapped string. -/
theorem text?_eq (htext : retimes → o.text? = none) : o'.text? = o.text? := by
  cases h with
  | retimed t hretimes => exact (htext hretimes).symm
  | _ => rfl

/-- Only a change that resizes gives a closed object more elements. -/
theorem resizes_of_lt (hcount : o.elementCount < o'.elementCount) : resizes := by
  cases h with
  | resized hes hfrozen hsize =>
    refine hsize.resolve_left fun hle => Nat.not_lt.mpr ?_ hcount
    simpa [elementCount, hes] using hle
  | _ => exact absurd hcount (Nat.lt_irrefl _)

end

end Takes

/-! ## 3. Frozen objects -/

/-- Whether an object is *rigid*: frozen, with all its properties. -/
structure Rigid (o : Object) : Prop where
  closed : o.extensible = false
  frozen : o.frozen = true
  fixed : ∀ entry ∈ o.properties.toList, entry.2.IsFixed

theorem rigid_freeze (o : Object) : o.freeze.Rigid := by
  refine ⟨rfl, rfl, fun entry hentry => ?_⟩
  simp only [freeze, Array.toList_map, List.mem_map] at hentry
  obtain ⟨e, -, rfl⟩ := hentry
  exact e.2.isFixed_freeze

/-- Whether entries have the same keys as others, and properties that these may have become. -/
abbrev KeptEntries : List (Key × Property) → List (Key × Property) → Prop :=
  List.Forall₂ fun a b => a.1.same b.1 = true ∧ a.2.Keeps b.2

namespace KeptEntries

variable {entries entries' : List (Key × Property)}

theorem refl (h : ∀ entry ∈ entries, entry.2.IsFixed) : KeptEntries entries entries :=
  List.forall₂_same.mpr fun entry hentry => ⟨entry.1.same_self, Property.keeps_refl (h entry hentry).configurable⟩

theorem trans {rest : List (Key × Property)} (h : KeptEntries entries entries') (h' : KeptEntries entries' rest) :
    KeptEntries entries rest := by
  induction h generalizing rest with
  | nil => exact h'
  | cons hab _ ih =>
    cases h' with
    | cons hbc htail => exact .cons ⟨(Key.same_congr hab.1 _).trans hbc.1, hab.2.trans hbc.2⟩ (ih htail)

theorem isFixed (h : KeptEntries entries entries') (hfixed : ∀ entry ∈ entries, entry.2.IsFixed) :
    ∀ entry ∈ entries', entry.2.IsFixed := by
  induction h with
  | nil => exact hfixed
  | cons hab _ ih =>
    obtain ⟨hfirst, hrest⟩ := List.forall_mem_cons.mp hfixed
    exact List.forall_mem_cons.mpr ⟨hab.2.isFixed hfirst, ih hrest⟩

/-- What is stored under a key is the same as before. -/
theorem under? (h : KeptEntries entries entries') (hfixed : ∀ entry ∈ entries, entry.2.IsFixed) (key : Key) :
    Option.Rel Property.Same (under? entries key) (under? entries' key) := by
  induction h with
  | nil => exact .none
  | cons hab _ ih =>
    obtain ⟨hfirst, hrest⟩ := List.forall_mem_cons.mp hfixed
    rw [under?_cons, under?_cons, ← Key.same_congr hab.1]
    split
    · exact .some (hab.2.same hfirst)
    · exact ih hrest

/-- Whatever is read off the names of the keys is the same as before. -/
theorem filterMap_eq {β : Type} (h : KeptEntries entries entries') (f : Option String → Option β) :
    (entries.filterMap fun entry => f entry.1.name?) = entries'.filterMap fun entry => f entry.1.name? := by
  induction h with
  | nil => rfl
  | @cons a b _ _ hab _ ih =>
    rw [List.filterMap_cons, List.filterMap_cons, Key.name?_congr hab.1, ih]

end KeptEntries

/-- Whether an object shows what a frozen one shows: its elements, its text, and its properties in their order. -/
structure Shows (o o' : Object) : Prop where
  elements : o'.elements = o.elements
  text : o'.text? = o.text?
  frozen : o'.frozen = o.frozen
  entries : KeptEntries o.properties.toList o'.properties.toList

theorem Shows.trans {a b c : Object} (hab : a.Shows b) (hbc : b.Shows c) : a.Shows c :=
  ⟨hbc.elements.trans hab.elements, hbc.text.trans hab.text, hbc.frozen.trans hab.frozen,
    KeptEntries.trans hab.entries hbc.entries⟩

theorem isFixed_arrayProperty? (h : arrayProperty? es true name = some p) : p.IsFixed := by
  unfold arrayProperty? at h
  split at h
  · cases h
    exact ⟨rfl, rfl⟩
  · split at h
    · obtain ⟨v, -, rfl⟩ := Option.map_eq_some_iff.mp h
      exact ⟨rfl, rfl⟩
    · cases h

theorem isFixed_textProperty? {s : String} (h : textProperty? s name = some p) : p.IsFixed := by
  unfold textProperty? at h
  split at h
  · cases h
    exact ⟨rfl, rfl⟩
  · split at h
    · split at h <;> cases h
      exact ⟨rfl, rfl⟩
    · cases h

namespace Rigid

variable {o o' : Object} (ho : o.Rigid)
include ho

theorem shows_self : o.Shows o :=
  ⟨rfl, rfl, rfl, .refl ho.fixed⟩

theorem freeze_eq : o.freeze = o := by
  have hproperties : (o.properties.map fun entry => (entry.1, entry.2.freeze)) = o.properties := by
    refine Array.map_congr_left (g := id) (fun entry hentry => ?_) |>.trans (Array.map_id _)
    rw [(ho.fixed entry (Array.mem_toList_iff.mpr hentry)).freeze_eq]
    rfl
  rw [freeze, hproperties, ← ho.closed, ← ho.frozen]

/-- What shows the same as a frozen object, and is closed, is frozen. -/
theorem of_shows (h : o.Shows o') (hclosed : o'.extensible = false) : o'.Rigid :=
  ⟨hclosed, h.frozen.trans ho.frozen, h.entries.isFixed ho.fixed⟩

theorem isFixed_virtual (hp : o.virtual? name = some p) : p.IsFixed := by
  unfold virtual? at hp
  rw [ho.frozen] at hp
  cases helements : o.elements with
  | none =>
    rw [helements] at hp
    dsimp only at hp
    split at hp
    · exact isFixed_textProperty? hp
    · cases hp
  | some es =>
    rw [helements] at hp
    dsimp only at hp
    cases harray : arrayProperty? es true name with
    | some q =>
      rw [harray] at hp
      cases hp
      exact isFixed_arrayProperty? harray
    | none =>
      rw [harray] at hp
      dsimp only at hp
      split at hp
      · exact isFixed_textProperty? hp
      · cases hp

/-- **A frozen object shows what it showed before any change that asks**, if none takes the text from a wrapped
string. -/
theorem shows {resizes retimes : Prop} (h : o.Takes resizes retimes o') (htext : o'.text? = o.text?) : o.Shows o' := by
  cases h with
  | overlaid key d hsplit hkey hadmits =>
    rename_i front back e
    have hfixed := ho.fixed
    rw [hsplit] at hfixed
    obtain ⟨hfront, hrest⟩ := List.forall_mem_append.mp hfixed
    obtain ⟨he, hback⟩ := List.forall_mem_cons.mp hrest
    have hadmits := hadmits.resolve_left (by simp [he.configurable])
    have hkeeps := Property.keeps_of_overlays he.configurable hadmits
      (Descriptor.overlays_overlay (Property.isProper_of_admits hadmits) e.2)
    refine ⟨rfl, rfl, rfl, ?_⟩
    rw [hsplit]
    exact List.rel_append (KeptEntries.refl hfront) (.cons ⟨hkey, hkeeps⟩ (KeptEntries.refl hback))
  | removed hsplit hconfigurable =>
    rename_i front back e
    have hfixed := ho.fixed e (by simp [hsplit])
    cases hfixed.configurable.symm.trans hconfigurable
  | resized hes hfrozen hsize => cases ho.frozen.symm.trans hfrozen
  | frozen => exact ho.freeze_eq.symm ▸ ho.shows_self
  | same => exact ho.shows_self
  | relinked prototype => exact ⟨rfl, rfl, rfl, .refl ho.fixed⟩
  | entries entries members => exact ⟨rfl, rfl, rfl, .refl ho.fixed⟩
  | retimed t _ => exact ⟨rfl, htext, rfl, .refl ho.fixed⟩

/-- Every own property is the same as before. -/
theorem own? (h : o.Shows o') (key : Key) : Option.Rel Property.Same (o.own? key) (o'.own? key) := by
  have hstored (key : Key) : Option.Rel Property.Same (o.stored? key) (o'.stored? key) := by
    rw [stored?_eq, stored?_eq]
    exact h.entries.under? ho.fixed key
  cases key with
  | symbol s => exact hstored _
  | string name =>
    have hsame : o'.virtual? name = o.virtual? name := by
      simp only [virtual?, h.elements, h.text, h.frozen]
    simp only [Object.own?, hsame]
    cases hp : o.virtual? name with
    | some p =>
      have hfixed := ho.isFixed_virtual hp
      exact .some ((Property.keeps_refl hfixed.configurable).same hfixed)
    | none => exact hstored _

omit ho in
/-- The own keys are the same as before, in the same order. -/
theorem ownKeys (h : o.Shows o') : SameKeys o.ownKeys o'.ownKeys := by
  have hindex : o.indexKeys = o'.indexKeys := by
    unfold indexKeys
    rw [h.entries.filterMap_eq fun name => name.bind fun name => (Text.index? name).map fun i => (i, name)]
  have hname : o.nameKeys = o'.nameKeys := h.entries.filterMap_eq (Option.filter fun name => (Text.index? name).isNone)
  have hstring : o.stringKeys = o'.stringKeys := by
    unfold stringKeys
    rw [hindex, hname, h.elements, h.text]
  unfold Object.ownKeys
  rw [hstring]
  refine List.rel_append (List.forall₂_same.mpr fun key _ => key.same_self) ?_
  rw [List.forall₂_map_left_iff, List.forall₂_map_right_iff]
  unfold symbolKeys
  refine List.rel_filterMap ?_ h.entries
  rintro ⟨ka, pa⟩ ⟨kb, pb⟩ hab
  cases ka with
  | string s =>
    cases kb with
    | string t => exact .none
    | symbol t => cases hab.1
  | symbol s =>
    cases kb with
    | string t => cases hab.1
    | symbol t => exact .some hab.1

end Rigid

end Object

end GuestScript
