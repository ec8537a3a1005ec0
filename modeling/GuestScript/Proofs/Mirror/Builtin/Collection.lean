import GuestScript.Proofs.Mirror.Builtin.Object

/-!
# Functions of collections on mirrors

The functions of the keyed collections do the same on both sides: keys that are moved are found in the same places.

The walk over the entries of a collection is the only loop in a built-in function. Each of its rounds calls a function,
which counts a step.
-/

namespace GuestScript

variable {key member receiver : Value} {entries : Array (Option (Value × Value))} {members : Array (Option Value)}
  {o : Object} {id : ObjectId} {e : Embedding}

/-! ## 1. Entries -/

namespace Collection

theorem normalKey_image (key : Value) : normalKey (image e key) = image e (normalKey key) := by
  cases key with
  | number x =>
    change (if x == 0.0 then Value.number 0.0 else .number x) = image e (if x == 0.0 then Value.number 0.0 else .number x)
    split <;> rfl
  | _ => rfl

theorem within_normalKey (hkey : Within e key) : Within e (normalKey key) := by
  cases key with
  | number x =>
    unfold normalKey
    dsimp only
    split <;> exact trivial
  | _ => exact hkey

/-- Entries that are moved are found in the same place. -/
theorem findIdx?_image {α : Type} [Carried α] {entries : Array (Option α)} (hentries : Within e entries)
    {p q : α → Bool} (hp : ∀ a, Within e a → q (image e a) = p a) :
    (image e entries).findIdx? (fun entry => entry.any q) = entries.findIdx? fun entry => entry.any p := by
  obtain ⟨l⟩ := entries
  have hl : Within e l := within_toList hentries
  clear hentries
  rw [image_toArray, List.findIdx?_toArray, List.findIdx?_toArray]
  induction l with
  | nil => rfl
  | cons entry l ih =>
    have hentry : (image e entry).any q = entry.any p := by
      cases entry with
      | none => rfl
      | some a => exact hp a (within_some.mp (within_cons.mp hl).1)
    rw [image_list, List.map_cons, List.findIdx?_cons, List.findIdx?_cons, hentry]
    rw [image_list] at ih
    rw [ih (within_cons.mp hl).2]

theorem findKey?_image (hentries : Within e entries) (hkey : Within e key) :
    findKey? (image e entries) (image e key) = findKey? entries key :=
  findIdx?_image hentries fun _ hentry => Value.sameValueZero_image hentry.1 hkey

theorem findMember?_image (hmembers : Within e members) (hmember : Within e member) :
    findMember? (image e members) (image e member) = findMember? members member :=
  findIdx?_image hmembers fun _ hv => Value.sameValueZero_image hv hmember

theorem insertEntry_image (hentries : Within e entries) (hkey : Within e key) (v : Value) :
    insertEntry (image e entries) (image e key) (image e v) = image e (insertEntry entries key v) := by
  unfold insertEntry
  rw [normalKey_image]
  dsimp only
  rw [findKey?_image hentries (within_normalKey hkey)]
  split
  · exact set_image entries _ (some (normalKey key, v))
  · exact push_image entries (some (normalKey key, v))

theorem within_insertEntry (hentries : Within e entries) {v : Value} (hkey : Within e key) (hv : Within e v) :
    Within e (insertEntry entries key v) := by
  have hentry : Within e (some (normalKey key, v)) := within_some.mpr ⟨within_normalKey hkey, hv⟩
  unfold insertEntry
  dsimp only
  split
  · exact within_set hentries _ hentry
  · exact within_push hentries hentry

theorem insertMember_image (hmembers : Within e members) (hmember : Within e member) :
    insertMember (image e members) (image e member) = image e (insertMember members member) := by
  unfold insertMember
  rw [normalKey_image]
  dsimp only
  rw [findMember?_image hmembers (within_normalKey hmember)]
  split
  · rfl
  · exact push_image members (some (normalKey member))

theorem within_insertMember (hmembers : Within e members) (hmember : Within e member) :
    Within e (insertMember members member) := by
  unfold insertMember
  dsimp only
  split
  · exact hmembers
  · exact within_push hmembers (within_some.mpr (within_normalKey hmember))

/-- The members of a set as entries. -/
theorem memberSlots_image (members : Array (Option Value)) :
    memberSlots (image e members) = image e (memberSlots members) := by
  simp only [memberSlots, image_array, Array.map_map]
  refine Array.map_congr_left fun m _ => ?_
  cases m <;> rfl

theorem within_memberSlots (h : Within e members) : Within e (memberSlots members) := by
  intro entry hentry
  obtain ⟨m, hm, rfl⟩ := Array.mem_map.mp hentry
  cases m with
  | none => exact within_none
  | some v =>
    have hv : Within e v := within_some.mp (h _ hm)
    exact within_some.mpr ⟨hv, hv⟩

theorem slots_image (o : Object) : slots (image e o) = image e (slots o) := by
  unfold slots
  rw [Object.mapEntries_image, Object.setEntries_image]
  cases o.mapEntries with
  | some entries => rfl
  | none =>
    cases o.setEntries with
    | some members => exact memberSlots_image members
    | none => exact image_emptyArray.symm

theorem within_slots (ho : Within e o) : Within e (slots o) := by
  have hentries := ho.mapEntries
  have hmembers := ho.setEntries
  unfold slots
  cases hmap : o.mapEntries with
  | some entries => exact hentries entries hmap
  | none =>
    cases hset : o.setEntries with
    | some members => exact within_memberSlots (hmembers members hset)
    | none => exact within_empty

theorem walkedSlots_image (o : Object) : walkedSlots (image e o) = image e (walkedSlots o) := by
  have hslots := slots_image (e := e) o
  unfold walkedSlots
  rw [Object.mapEntries_image, Object.setEntries_image]
  cases o.mapEntries with
  | none => exact hslots
  | some entries =>
    cases o.setEntries with
    | none => exact hslots
    | some members =>
      simp only [image_some, size_image, extract_image, memberSlots_image]
      exact append_image entries _

theorem within_walkedSlots (ho : Within e o) : Within e (walkedSlots o) := by
  have hslots := within_slots ho
  have hentries := ho.mapEntries
  have hmembers := ho.setEntries
  unfold walkedSlots
  cases hmap : o.mapEntries with
  | none => exact hslots
  | some entries =>
    cases hset : o.setEntries with
    | none => exact hslots
    | some members =>
      exact within_appendArray (hentries entries hmap) (within_memberSlots (within_extract (hmembers members hset) _ _))

theorem entries_image (o : Object) : Collection.entries (image e o) = image e (Collection.entries o) := by
  unfold entries
  rw [slots_image]
  exact Eval.image_present (slots o)

theorem within_entries (ho : Within e o) : Within e (Collection.entries o) :=
  Eval.within_present (within_slots ho)

theorem has_image (ho : Within e o) (hkey : Within e key) : has (image e o) (image e key) = has o key := by
  unfold has
  rw [slots_image, findKey?_image (within_slots ho) hkey]

theorem value?_image (ho : Within e o) (hkey : Within e key) :
    value? (image e o) (image e key) = image e (value? o key) := by
  unfold value?
  rw [slots_image, findKey?_image (within_slots ho) hkey]
  cases findKey? (slots o) key with
  | none => rfl
  | some i =>
    dsimp only [Option.bind_some]
    rw [getElem?_image]
    rcases (slots o)[i]? with _ | _ | entry <;> rfl

theorem within_value? (ho : Within e o) (key : Value) : Within e (value? o key) := by
  unfold value?
  cases findKey? (slots o) key with
  | none => exact within_none
  | some i =>
    have hentry := within_getElem? (within_slots ho) i
    dsimp only [Option.bind_some]
    generalize (slots o)[i]? = found at hentry ⊢
    rcases found with _ | _ | entry
    · exact within_none
    · exact within_none
    · exact within_some.mpr (within_some.mp (within_some.mp hentry)).2

theorem erase_image (ho : Within e o) (hkey : Within e key) :
    erase (image e o) (image e key) = (image e (erase o key).1, (erase o key).2) := by
  unfold erase
  rw [slots_image, findKey?_image (within_slots ho) hkey]
  cases findKey? (slots o) key with
  | none => rfl
  | some i =>
    have hmembers : (image e o.setEntries).map (fun ms => ms.setIfInBounds i none) =
        image e (o.setEntries.map fun ms => ms.setIfInBounds i none) := by
      cases o.setEntries with
      | none => rfl
      | some ms => exact congrArg some (set_image ms i none)
    dsimp only
    rw [Object.mapEntries_image, Object.setEntries_image, hmembers]
    split
    next hkeyed =>
      cases hmap : o.mapEntries with
      | none => rw [hmap] at hkeyed; cases hkeyed
      | some es =>
        rw [hmap] at hkeyed
        cases hkeyed
        exact congrArg (fun entries => ({ image e o with mapEntries := some entries }, true)) (set_image es i none)
    next hnone =>
      cases hmap : o.mapEntries with
      | none => rfl
      | some es => rw [hmap] at hnone; cases hnone

theorem within_erase (ho : Within e o) (key : Value) : Within e (erase o key).1 := by
  unfold erase
  split
  · exact ho
  · split
    next es hes => exact { ho with mapEntries := within_some.mpr (within_set (ho.mapEntries es hes) _ within_none) }
    · refine { ho with setEntries := ?_ }
      rintro ms hms
      obtain ⟨members, hmembers, rfl⟩ := Option.map_eq_some_iff.mp hms
      exact within_set (ho.setEntries members hmembers) _ within_none

theorem clear_image (o : Object) : clear (image e o) = image e (clear o) := by
  have hkeyed : (image e o.mapEntries).map (fun _ => (#[] : Array (Option (Value × Value)))) =
      image e (o.mapEntries.map fun _ => #[]) := by
    cases o.mapEntries with
    | none => rfl
    | some es => exact congrArg some image_emptyArray.symm
  have hmembers : (image e o.setEntries).map (fun _ => (#[] : Array (Option Value))) =
      image e (o.setEntries.map fun _ => #[]) := by
    cases o.setEntries with
    | none => rfl
    | some ms => exact congrArg some image_emptyArray.symm
  unfold clear
  rw [Object.mapEntries_image, Object.setEntries_image, hkeyed, hmembers]
  rfl

theorem within_clear (ho : Within e o) : Within e (clear o) := by
  refine { ho with mapEntries := ?_, setEntries := ?_ }
  · rintro es hes
    obtain ⟨entries, -, rfl⟩ := Option.map_eq_some_iff.mp hes
    exact within_empty
  · rintro ms hms
    obtain ⟨members, -, rfl⟩ := Option.map_eq_some_iff.mp hms
    exact within_empty

theorem nextEntry?_image (o : Object) (start : Nat) : nextEntry? (image e o) start = image e ( nextEntry? o start) := by
  have hfind (l : Array (Option (Value × Value))) : (image e l).findIdx? Option.isSome = l.findIdx? Option.isSome := by
    rw [image_array, Array.findIdx?_map]
    exact congrArg (l.findIdx? ·) (funext fun entry => isSome_image entry)
  unfold nextEntry?
  dsimp only
  rw [walkedSlots_image, size_image, extract_image, hfind]
  cases ((walkedSlots o).extract start (walkedSlots o).size).findIdx? Option.isSome with
  | none => rfl
  | some i =>
    dsimp only [Option.bind_some]
    rw [getElem?_image]
    rcases (walkedSlots o)[start + i]? with _ | _ | entry <;> rfl

theorem within_nextEntry? (ho : Within e o) (start : Nat) : Within e ( nextEntry? o start) := by
  unfold nextEntry?
  dsimp only
  cases ((walkedSlots o).extract start (walkedSlots o).size).findIdx? Option.isSome with
  | none => exact within_none
  | some i =>
    have hentry := within_getElem? (within_walkedSlots ho) (start + i)
    dsimp only [Option.bind_some]
    generalize (walkedSlots o)[start + i]? = found at hentry ⊢
    rcases found with _ | _ | entry
    · exact within_none
    · exact within_none
    · exact within_some.mpr ⟨within_some.mp (within_some.mp hentry), trivial⟩

end Collection

/-! ## 2. Actions -/

namespace Eval

theorem tracks_receiverCollection (hreceiver : Within e receiver) (kind : CollectionKind) (method : String) :
    (receiverCollection receiver kind method).Tracks e (receiverCollection (image e receiver) kind method) := by
  have hrefuse : (do
        throwTypeError ("Method " ++ kind.name ++ ".prototype." ++ method
          ++ " called on incompatible receiver " ++ (← display receiver)) : Eval ObjectId).Tracks e
      (do
        throwTypeError ("Method " ++ kind.name ++ ".prototype." ++ method
          ++ " called on incompatible receiver " ++ (← display (image e receiver)))) :=
    (tracks_display hreceiver).bind fun _ _ => follows_throwTypeError _
  cases receiver with
  | object id =>
    refine (tracks_object (.inl hreceiver)).bind fun o _ => ?_
    refine Follows.ite ?_ (fun _ => .done hreceiver) fun _ => hrefuse
    rw [Object.sort_image, Object.mapEntries_image, Object.setEntries_image, isSome_image, isSome_image]
  | _ => exact hrefuse

theorem tracks_checkWeakKey (kind : CollectionKind) (key : Value) :
    (checkWeakKey kind key).Tracks e (checkWeakKey kind (image e key)) :=
  Follows.ite (by rw [Value.isObject_image]) (fun _ => follows_throwTypeError _) fun _ => tracks_unit

theorem tracks_insertEntry (hid : e.Open id) {v : Value} (hkey : Within e key) (hv : Within e v) :
    (insertEntry id key v).Tracks e (insertEntry (e.object id) (image e key) (image e v)) := by
  refine tracks_modifyObject hid (.asked (.entries fun o => ?_)) fun o ho => ?_
  · cases h : o.mapEntries with
    | some es => exact .ofEntries h (Collection.edited_insertEntry es key v)
    | none => exact .refl o
  have hentries := ho.mapEntries
  rw [Object.mapEntries_image]
  cases h : o.mapEntries with
  | none => exact ⟨ho, rfl⟩
  | some entries =>
    have hheld : Within e entries := hentries entries h
    have hslots : Within e { o with mapEntries := some (Collection.insertEntry entries key v) } :=
      { ho with mapEntries := within_some.mpr (Collection.within_insertEntry hheld hkey hv) }
    refine ⟨hslots, ?_⟩
    dsimp only [image_some]
    rw [Collection.insertEntry_image hheld hkey]
    rfl

theorem tracks_insertMember (hid : e.Open id) (hmember : Within e member) :
    (insertMember id member).Tracks e (insertMember (e.object id) (image e member)) := by
  refine tracks_modifyObject hid (.asked (.entries fun o => ?_)) fun o ho => ?_
  · cases h : o.setEntries with
    | some ms => exact .ofMembers h (Collection.edited_insertMember ms member)
    | none => exact .refl o
  have hmembers := ho.setEntries
  rw [Object.setEntries_image]
  cases h : o.setEntries with
  | none => exact ⟨ho, rfl⟩
  | some members =>
    have hheld : Within e members := hmembers members h
    have hslots : Within e { o with setEntries := some (Collection.insertMember members member) } :=
      { ho with setEntries := within_some.mpr (Collection.within_insertMember hheld hmember) }
    refine ⟨hslots, ?_⟩
    dsimp only [image_some]
    rw [Collection.insertMember_image hheld hmember]
    rfl

theorem tracks_insertItem (kind : CollectionKind) (hid : e.Open id) {item : Value} (hitem : Within e item) :
    (insertItem kind id item).Tracks e (insertItem kind (e.object id) (image e item)) := by
  have hentry : (do
        let key ← getNamed item "0"
        let value ← getNamed item "1"
        checkWeakKey kind key
        insertEntry id key value).Tracks e
      (do
        let key ← getNamed (image e item) "0"
        let value ← getNamed (image e item) "1"
        checkWeakKey kind key
        insertEntry (e.object id) key value) := by
    refine (tracks_getNamed hitem "0").bind fun key hkey => (tracks_getNamed hitem "1").bind fun value hvalue => ?_
    exact (tracks_checkWeakKey kind key).bind fun _ _ => tracks_insertEntry hid hkey hvalue
  refine follows_charge.bind fun _ _ => Follows.ite Iff.rfl (fun _ => ?_) fun _ => ?_
  · refine Follows.ite (by rw [Value.isObject_image]) (fun _ => ?_) fun _ => hentry
    refine (tracks_display hitem).bind fun text _ => ?_
    exact Follows.bind (P := Within e) (g := image e) (follows_throwTypeError _) fun _ _ => hentry
  · exact (tracks_checkWeakKey kind item).bind fun _ _ => tracks_insertMember hid hitem

theorem tracks_makeCollection (kind : CollectionKind) (hreceiver : Within e receiver) {args : Array Value}
    (hargs : Within e args) :
    (makeCollection kind receiver args).Tracks e (makeCollection kind (image e receiver) (image e args)) := by
  unfold makeCollection
  rw [argument_image]
  refine (tracks_constructing? hreceiver).bind fun target htarget => ?_
  cases target with
  | none => exact follows_throwTypeError _
  | some id =>
    have hid : e.Open id := within_some.mp htarget
    have hsource := within_argument hargs 0
    have hlast : (pure (.object id) : Eval Value).Tracks e (pure (.object (e.object id))) :=
      .done (Value.within_object hid)
    have hempty : (modifyObject id fun o =>
          if kind.isKeyed then { o with sort := .collection kind, mapEntries := some #[] }
          else { o with sort := .collection kind, setEntries := some #[] }).Tracks e
        (modifyObject (e.object id) fun o =>
          if kind.isKeyed then { o with sort := .collection kind, mapEntries := some #[] }
          else { o with sort := .collection kind, setEntries := some #[] }) := by
      refine tracks_modifyObject hid (Object.SetUp.become (.collection kind) fun o => ?_).written fun o ho => ?_
      · split <;> exact ⟨_, _, _, _, _, rfl, fun h => h⟩
      have hkeyed : Within e { o with sort := .collection kind, mapEntries := some #[] } :=
        { ho with mapEntries := within_some.mpr within_empty }
      have hmembers : Within e { o with sort := .collection kind, setEntries := some #[] } :=
        { ho with setEntries := within_some.mpr within_empty }
      split
      · refine ⟨hkeyed, ?_⟩
        exact congrArg (fun entries => { image e o with sort := .collection kind, mapEntries := some entries })
          image_emptyArray.symm
      · refine ⟨hmembers, ?_⟩
        exact congrArg (fun members => { image e o with sort := .collection kind, setEntries := some members })
          image_emptyArray.symm
    refine hempty.bind fun _ _ => Follows.ite (by rw [Value.isNullish_image]) (fun _ => ?_) fun _ => hlast
    refine (tracks_iterate hsource _).bind fun items hitems => ?_
    rw [toList_image]
    exact (tracks_forM (within_toList hitems) fun item hitem => tracks_insertItem kind hid hitem).bind fun _ _ => hlast

theorem tracks_forEachEntry {f this : Value} (hf : Within e f) (hreceiver : Within e receiver) (hid : e.Open id)
    (hthis : Within e this) :
    (forEachEntry f receiver id this).Tracks e
      (forEachEntry (image e f) (image e receiver) (e.object id) (image e this)) := by
  refine tracks_loop trivial rfl (fun start _ => ?_) fun start _ => ?_
  · refine (tracks_object (.inl hid)).bind fun o ho => ?_
    have hnext := Collection.within_nextEntry? ho start
    rw [image_nat, Collection.nextEntry?_image]
    generalize Collection.nextEntry? o start = found at hnext ⊢
    cases found with
    | none => exact .done trivial
    | some found =>
      obtain ⟨⟨key, value⟩, next⟩ := found
      obtain ⟨⟨hkey, hvalue⟩, -⟩ := within_some.mp hnext
      refine (tracks_callback hf hreceiver (within_three hvalue hkey hthis) (by simp)).discard.bind fun _ _ => ?_
      exact .done trivial
  · refine Counts.second fun o => ?_
    cases Collection.nextEntry? o start with
    | none => exact counts_pure fun h => h
    | some found => exact Counts.first (Counts.first (Counts.first counts_charge))

end Eval

/-! ## 3. The functions -/

open Eval in
/-- The functions of a collection do the same on mirrors. -/
theorem CollectionMethod.tracks_run (kind : CollectionKind) (method : CollectionMethod) (hreceiver : Within e receiver)
    {args : Array Value} (hargs : Within e args) :
    (method.run kind receiver args).Tracks e (method.run kind (image e receiver) (image e args)) := by
  have hfirst := within_argument hargs 0
  unfold CollectionMethod.run
  rw [argument_image, argument_image]
  refine (tracks_receiverCollection hreceiver kind _).bind fun id hid => ?_
  have hobject : (object id).Tracks e (object (e.object id)) := tracks_object (.inl hid)
  cases method with
  | has => exact hobject.bind fun o ho => follows_pure trivial (by rw [Collection.has_image ho hfirst]; rfl)
  | delete =>
    have herase : (updateObject id fun o => Collection.erase o (argument args 0)).Tracks e
        (updateObject (e.object id) fun o => Collection.erase o (image e (argument args 0))) :=
      follows_updateObject hid (.asked (.entries fun o => Collection.edited_erase o _)) fun o ho =>
        ⟨Collection.within_erase ho _, trivial, Collection.erase_image ho hfirst⟩
    exact herase.bind fun _ _ => .done trivial
  | get =>
    refine hobject.bind fun o ho => ?_
    rw [Collection.value?_image ho hfirst]
    exact follows_pure (within_getD (Collection.within_value? ho _) Value.within_undefined) (getD_image _ Value.undefined)
  | set =>
    refine (tracks_checkWeakKey kind _).bind fun _ _ => ?_
    exact (tracks_insertEntry hid hfirst (within_argument hargs 1)).bind fun _ _ => .done hreceiver
  | add =>
    exact (tracks_checkWeakKey kind _).bind fun _ _ => (tracks_insertMember hid hfirst).bind fun _ _ => .done hreceiver
  | clear =>
    have hclear := tracks_modifyObject hid (.asked .clear) fun o ho =>
      ⟨Collection.within_clear ho, Collection.clear_image o⟩
    exact hclear.bind fun _ _ => .done trivial
  | forEach =>
    refine (tracks_requireCallable hfirst _).bind fun _ _ => ?_
    exact (tracks_forEachEntry hfirst (within_argument hargs 1) hid hreceiver).bind fun _ _ => .done trivial
  | keys =>
    refine hobject.bind fun o ho => ?_
    have hkeys : Within e ((Collection.entries o).map Prod.fst) := fun v hv => by
      obtain ⟨entry, hentry, rfl⟩ := List.mem_map.mp hv
      exact (Collection.within_entries ho entry hentry).1
    have htracks := tracks_newArray (within_toArray hkeys)
    rw [Collection.entries_image]
    rw [image_toArray, image_list, List.map_map] at htracks
    rwa [image_list, List.map_map]
  | values =>
    refine hobject.bind fun o ho => ?_
    have hvalues : Within e ((Collection.entries o).map Prod.snd) := fun v hv => by
      obtain ⟨entry, hentry, rfl⟩ := List.mem_map.mp hv
      exact (Collection.within_entries ho entry hentry).2
    have htracks := tracks_newArray (within_toArray hvalues)
    rw [Collection.entries_image]
    rw [image_toArray, image_list, List.map_map] at htracks
    rwa [image_list, List.map_map]
  | entries =>
    refine hobject.bind fun o ho => ?_
    rw [Collection.entries_image]
    exact (tracks_newPairs (Collection.within_entries ho)).bind fun pairs hpairs => tracks_newArray hpairs
  | size =>
    refine hobject.bind fun o ho => follows_pure trivial ?_
    rw [Collection.entries_image, image_list, List.length_map]
    rfl

end GuestScript
