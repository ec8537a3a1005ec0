import GuestScript.Proofs.Mirror.Operation

/-!
# Functions of objects on mirrors

What built-in functions share, and the functions of `Object`, do the same on both sides. All that they compare are
values, and an embedding keeps values apart.
-/

namespace GuestScript

variable {args : Array Value} {receiver v : Value} {id : ObjectId} {e : Embedding}

/-! ## 1. What built-in functions share -/

theorem argument_image (args : Array Value) (i : Nat) : argument (image e args) i = image e (argument args i) :=
  getD_item_image args i

theorem within_argument (h : Within e args) (i : Nat) : Within e (argument args i) :=
  within_item h i

/-- Texts as values hold no address. -/
theorem within_strings (names : List String) : Within e (names.map Value.string) := by
  intro v hv
  obtain ⟨name, -, rfl⟩ := List.mem_map.mp hv
  exact trivial

theorem image_strings (names : List String) : image e (names.map Value.string) = names.map Value.string := by
  simp [image_list, Function.comp_def]

namespace Eval

variable {α : Type} {P : α → Prop} {g : α → α}

theorem tracks_strings (names : List String) :
    (newArray (names.map Value.string).toArray).Tracks e (newArray (names.map Value.string).toArray) := by
  have htracks := tracks_newArray (within_toArray (within_strings (e := e) names))
  rwa [image_toArray, image_strings] at htracks

theorem tracks_callback {function : Value} {args' : Array Value} (hfunction : Within e function)
    (hreceiver : Within e receiver) (hargs : Within e args) (heq : args' = image e args) :
    (callback function receiver args).Tracks e (callback (image e function) (image e receiver) args') :=
  follows_charge.bind fun _ _ => tracks_call hfunction hreceiver hargs heq

theorem tracks_requireCallable (hv : Within e v) (method : String) :
    (requireCallable v method).Tracks e (requireCallable (image e v) method) :=
  (tracks_isCallable hv).bind fun _ _ => Follows.ite Iff.rfl (fun _ => tracks_unit) fun _ =>
    (tracks_display hv).bind fun _ _ => follows_throwTypeError _

theorem tracks_relativeArgument (hv : Within e v) (size default : Nat) :
    (relativeArgument v size default).Tracks e (relativeArgument (image e v) size default) :=
  Follows.ite (by rw [Value.isUndefined_image]) (fun _ => .done trivial) fun _ =>
    (tracks_toInteger hv).bind fun _ _ => .done trivial

theorem tracks_wrapInto (hid : e.Open id) (sort : ObjectClass) {primitive : Value} (hprimitive : Within e primitive) :
    (wrapInto id sort primitive).Tracks e (wrapInto (e.object id) sort (image e primitive)) := by
  have hbecome : Object.SetUp fun o => { o with sort := sort, primitive := some primitive } :=
    .become sort fun _ => ⟨_, _, _, _, _, rfl, fun h => h⟩
  refine Follows.bind (tracks_modifyObject hid hbecome.written fun o ho => ?_) fun _ _ => .done (Value.within_object hid)
  have hslots : Within e { o with sort := sort, primitive := some primitive } :=
    { ho with primitive := within_some.mpr hprimitive }
  exact ⟨hslots, rfl⟩

theorem tracks_wrapped? (hreceiver : Within e receiver) (sort : ObjectClass) :
    (wrapped? receiver sort).Tracks e (wrapped? (image e receiver) sort) := by
  cases receiver with
  | object id =>
    refine (tracks_object (.inl hreceiver)).bind fun o ho => follows_pure ?_ ?_
    · split
      · exact ho.primitive
      · exact within_none
    · rw [Object.sort_image]
      split <;> rfl
  | _ => exact .done (within_some.mpr hreceiver)

/-! ## 2. Objects -/

theorem tracks_field? (hid : e.Open id) (name : String) : (field? id name).Tracks e (field? (e.object id) name) := by
  refine (tracks_hasProperty (.inl hid) (.string name)).bind fun has _ => ?_
  refine Follows.ite Iff.rfl (fun _ => ?_) fun _ => .done within_none
  exact (tracks_getNamed (Value.within_object hid) name).bind fun v hv => .done (within_some.mpr hv)

theorem tracks_accessorField? (hid : e.Open id) (name : String) :
    (accessorField? id name).Tracks e (accessorField? (e.object id) name) := by
  refine (tracks_field? hid name).bind fun f hf => ?_
  cases f with
  | none => exact .done within_none
  | some f =>
    have hvalue : Within e f := within_some.mp hf
    refine (tracks_isCallable hvalue).bind fun isFunction _ => ?_
    refine Follows.ite (by rw [Value.isUndefined_image]; rfl) (fun _ => .done hf) fun _ => ?_
    exact (tracks_display hvalue).bind fun _ _ => follows_throwTypeError _

/-- A descriptor must not be of both sorts. -/
theorem tracks_checkDescriptor {d : Descriptor} (hd : Within e d) (message : String) :
    (if d.isAccessor && d.isData then throwTypeError message else pure d : Eval Descriptor).Tracks e
      (if (image e d).isAccessor && (image e d).isData then throwTypeError message else pure (image e d)) :=
  Follows.ite (by rw [Descriptor.isAccessor_image, Descriptor.isData_image]) (fun _ => follows_throwTypeError _)
    fun _ => .done hd

theorem tracks_toDescriptor (hv : Within e v) : (toDescriptor v).Tracks e (toDescriptor (image e v)) := by
  cases v with
  | object id =>
    refine (tracks_field? hv "enumerable").bind fun enumerable _ => ?_
    refine (tracks_field? hv "configurable").bind fun configurable _ => ?_
    refine (tracks_field? hv "value").bind fun value hvalue => ?_
    refine (tracks_field? hv "writable").bind fun writable _ => ?_
    refine (tracks_accessorField? hv "get").bind fun getter hgetter => ?_
    refine (tracks_accessorField? hv "set").bind fun setter hsetter => ?_
    have htruthy (flag : Option Value) : (image e flag).map Value.truthy = flag.map Value.truthy := by
      rw [image_option, Option.map_map]
      exact Option.map_congr fun v _ => v.truthy_image
    rw [htruthy, htruthy, htruthy]
    have hd : Within e (Descriptor.mk value (writable.map Value.truthy) getter setter (enumerable.map Value.truthy)
        (configurable.map Value.truthy)) := ⟨hvalue, hgetter, hsetter⟩
    exact tracks_checkDescriptor hd _
  | _ => exact (tracks_display hv).bind fun _ _ => follows_throwTypeError _

theorem tracks_insertAll (hid : e.Open id) {fields : List (String × Value)} (h : Within e fields) :
    (modifyObject id fun o => fields.foldl (fun o entry => o.insertValue entry.1 entry.2) o).Tracks e
      (modifyObject (e.object id) fun o =>
        (image e fields).foldl (fun o entry => o.insertValue entry.1 entry.2) o) :=
  tracks_modifyObject hid (Object.written_insertAll fields) fun o ho => ⟨within_insertAll h ho, image_insertAll fields o⟩

theorem tracks_ofProperty {p : Property} (hp : Within e p) :
    (ofProperty p).Tracks e (ofProperty (image e p)) := by
  obtain ⟨content, enumerable, configurable⟩ := p
  refine tracks_newPlain.bind fun id hid => ?_
  have hflags : Within e [("enumerable", Value.boolean enumerable), ("configurable", Value.boolean configurable)] :=
    within_cons.mpr ⟨⟨trivial, trivial⟩, within_cons.mpr ⟨⟨trivial, trivial⟩, within_nil⟩⟩
  cases content with
  | data value writable =>
    have hfields := within_cons (a := ("value", value)).mpr ⟨⟨trivial, hp⟩,
      within_cons (a := ("writable", Value.boolean writable)).mpr ⟨⟨trivial, trivial⟩, hflags⟩⟩
    exact (tracks_insertAll hid hfields).bind fun _ _ => .done (Value.within_object hid)
  | accessor getter setter =>
    have hfields := within_cons (a := ("get", getter)).mpr ⟨⟨trivial, hp.1⟩,
      within_cons (a := ("set", setter)).mpr ⟨⟨trivial, hp.2⟩, hflags⟩⟩
    exact (tracks_insertAll hid hfields).bind fun _ _ => .done (Value.within_object hid)

theorem tracks_defineAll {target : ObjectId} (htarget : e.Open target) {props : Value} (hprops : Within e props) :
    (defineAll target props).Tracks e (defineAll (e.object target) (image e props)) := by
  refine (tracks_toObject hprops).bind fun source hsource => (tracks_enumerableKeys hsource).bind fun keys hkeys => ?_
  refine (tracks_mapM hkeys fun key _ => ?_).bind fun descriptors hdescriptors => ?_
  · refine (tracks_get (Value.within_object hsource) key).bind fun v hv => ?_
    exact (tracks_toDescriptor hv).bind fun d hd => .done ⟨trivial, hd⟩
  · exact tracks_forM hdescriptors fun entry hentry => tracks_defineOrThrow htarget entry.1 hentry.2

theorem tracks_ownEntries (hv : Within e v) : (ownEntries v).Tracks e (ownEntries (image e v)) := by
  refine (tracks_toObject hv).bind fun id hid => (tracks_enumerableNames_own hid).bind fun names _ => ?_
  refine tracks_mapM_same fun name _ => ?_
  exact (tracks_getNamed (Value.within_object hid) name).bind fun v hv => .done ⟨trivial, hv⟩

theorem tracks_assignFrom {target : ObjectId} (htarget : e.Open target) {source : Value} (hsource : Within e source) :
    (assignFrom target source).Tracks e (assignFrom (e.object target) (image e source)) := by
  refine Follows.ite (by rw [Value.isNullish_image]) (fun _ => tracks_unit) fun _ => ?_
  refine (tracks_toObject hsource).bind fun id hid => (tracks_enumerableKeys hid).bind fun keys hkeys => ?_
  refine tracks_forM hkeys fun key _ => (tracks_get (Value.within_object hid) key).bind fun v hv => ?_
  exact tracks_put (Value.within_object htarget) key hv

theorem tracks_prototypeArgument (hv : Within e v) :
    (prototypeArgument v).Tracks e (prototypeArgument (image e v)) := by
  cases v with
  | object id => exact .done (within_some.mpr hv)
  | null => exact .done within_none
  | _ => exact (tracks_display hv).bind fun _ _ => follows_throwTypeError _

theorem tracks_ofEntries {entries : Array Value} (h : Within e entries) :
    (ofEntries entries).Tracks e (ofEntries (image e entries)) := by
  refine tracks_newPlain.bind fun id hid => ?_
  rw [toList_image]
  refine (tracks_forM (within_toList h) fun entry hentry => ?_).bind fun _ _ => .done (Value.within_object hid)
  refine Follows.ite (by rw [Value.isObject_image]) (fun _ => ?_) fun _ => ?_
  · refine (tracks_getNamed hentry "0").bind fun name hname => (tracks_toKey hname).bind fun key _ => ?_
    refine (tracks_getNamed hentry "1").bind fun v hv => ?_
    exact (tracks_defineOwn hid key (within_ordinary hv)).discard
  · exact (tracks_display hentry).bind fun _ _ => follows_throwTypeError _

theorem tracks_inheritsFrom {prototype : ObjectId} (hid : e.Open id) (hprototype : e.Open prototype) :
    (read fun m => m.inheritsFrom id prototype).Tracks e
      (read fun m => m.inheritsFrom (e.object id) (e.object prototype)) :=
  .read fun _ _ h => ⟨trivial, h.inheritsFrom hid hprototype⟩

theorem tracks_setPrototype (hid : e.Open id) {prototype : Option ObjectId} (hprototype : Within e prototype) :
    (setPrototype id prototype).Tracks e (setPrototype (e.object id) (image e prototype)) := by
  refine (tracks_checkMutable (.inl hid)).bind fun _ _ => ?_
  have hlink : (update (.link id prototype)).Follows e (fun _ => True) (fun closes => closes)
      (update (.link (e.object id) (image e prototype))) := .update (.link hid hprototype)
  exact hlink.bind fun _ _ => Follows.ite Iff.rfl (fun _ => tracks_unit) fun _ => follows_throwTypeError _

theorem builtinTag_image (o : Object) : builtinTag (image e o) = builtinTag o := by
  unfold builtinTag
  rw [Object.callable_image, isSome_image, Object.sort_image]

theorem tracks_tagOf (hv : Within e v) :
    (do
      let id ← toObject v
      match ← get (.object id) (.symbol (.wellKnown .toStringTag)) with
      | .string tag => pure ("[object " ++ tag ++ "]")
      | _ => return "[object " ++ builtinTag (← object id) ++ "]" : Eval String).Tracks e
    (do
      let id ← toObject (image e v)
      match ← get (.object id) (.symbol (.wellKnown .toStringTag)) with
      | .string tag => pure ("[object " ++ tag ++ "]")
      | _ => return "[object " ++ builtinTag (← object id) ++ "]") := by
  refine (tracks_toObject hv).bind fun id hid => ?_
  refine (tracks_get (Value.within_object hid) (.symbol (.wellKnown .toStringTag))).bind fun tag _ => ?_
  cases tag with
  | string tag => exact .done trivial
  | _ =>
    refine (tracks_object (.inl hid)).bind fun o _ => follows_pure trivial ?_
    rw [builtinTag_image]
    rfl

theorem tracks_taggedText (hv : Within e v) : (taggedText v).Tracks e (taggedText (image e v)) := by
  have htag := tracks_tagOf hv
  cases v with
  | undefined | null => exact .done trivial
  | _ => exact htag

end Eval

theorem Object.isFrozen_image (o : Object) : (image e o).isFrozen = o.isFrozen := by
  have hfixed (entry : Key × Property) :
      ((image e entry).1.name?.isNone || (!(image e entry).2.configurable && !(image e entry).2.isWritable)) =
        (entry.1.name?.isNone || (!entry.2.configurable && !entry.2.isWritable)) := by
    rw [fst_image, snd_image, Key.name?_image, Property.configurable_image, Property.isWritable_image]
  have helements : ((image e o).elements.getD #[]).isEmpty = (o.elements.getD #[]).isEmpty := by
    rw [elements_image]
    cases o.elements with
    | none => rfl
    | some elements => exact isEmpty_image elements
  unfold isFrozen
  rw [helements, extensible_image, frozen_image, properties_image, image_array, Array.all_map]
  simp only [Function.comp_def, hfixed]

open Eval in
/-- The functions of `Object` do the same on mirrors. -/
theorem ObjectMethod.tracks_run (method : ObjectMethod) (hreceiver : Within e receiver) (hargs : Within e args) :
    (method.run receiver args).Tracks e (method.run (image e receiver) (image e args)) := by
  have hfirst := within_argument hargs 0
  have hsecond := within_argument hargs 1
  unfold ObjectMethod.run
  rw [argument_image, argument_image, argument_image]
  generalize argument args 0 = first at hfirst ⊢
  generalize argument args 1 = second at hsecond ⊢
  cases method with
  | make =>
    refine Follows.ite (by rw [Value.isNullish_image]) (fun _ => ?_) fun _ =>
      (tracks_toObject hfirst).bind fun id hid => .done (Value.within_object hid)
    refine (tracks_constructing? hreceiver).bind fun target htarget => ?_
    cases target with
    | some id => exact .done (Value.within_object (within_some.mp htarget))
    | none => exact tracks_newPlain.bind fun id hid => .done (Value.within_object hid)
  | keys =>
    exact (tracks_toObject hfirst).bind fun id hid => (tracks_enumerableNames_own hid).bind fun names _ =>
      tracks_strings names
  | values =>
    refine (tracks_ownEntries hfirst).bind fun entries hentries => ?_
    have hvalues : Within e (entries.map Prod.snd) := fun v hv => by
      obtain ⟨entry, hentry, rfl⟩ := List.mem_map.mp hv
      exact (hentries entry hentry).2
    have htracks := tracks_newArray (within_toArray hvalues)
    have himage : image e (entries.map Prod.snd).toArray = ((image e entries).map Prod.snd).toArray := by
      rw [image_toArray, image_list, image_list, List.map_map, List.map_map]
      rfl
    rwa [himage] at htracks
  | entries =>
    refine (tracks_ownEntries hfirst).bind fun entries hentries => ?_
    have hpairs : Within e (entries.map fun entry => (Value.string entry.1, entry.2)) := fun pair hpair => by
      obtain ⟨entry, hentry, rfl⟩ := List.mem_map.mp hpair
      exact ⟨trivial, (hentries entry hentry).2⟩
    have htracks := tracks_newPairs hpairs
    have himage : image e (entries.map fun entry => (Value.string entry.1, entry.2)) =
        (image e entries).map fun entry => (Value.string entry.1, entry.2) := by
      rw [image_list, image_list, List.map_map, List.map_map]
      rfl
    rw [himage] at htracks
    exact htracks.bind fun pairs hpairs => tracks_newArray hpairs
  | assign =>
    refine (tracks_toObject hfirst).bind fun target htarget => (tracks_checkMutable (.inl htarget)).bind fun _ _ => ?_
    have hsources : Within e (args.toList.drop 1) := fun v hv => within_toList hargs v (List.mem_of_mem_drop hv)
    have hassign := tracks_forM hsources fun source hsource => tracks_assignFrom htarget hsource
    have himage : image e (args.toList.drop 1) = (image e args).toList.drop 1 := by
      rw [toList_image]
      exact List.map_drop
    rw [himage] at hassign
    exact hassign.bind fun _ _ => .done (Value.within_object htarget)
  | freeze =>
    cases first with
    | object id =>
      refine (tracks_checkMutable (.inl hfirst)).bind fun _ _ => ?_
      have hfreeze := tracks_modifyObject hfirst (.asked .freeze) fun o ho => ⟨Object.within_freeze ho, Object.freeze_image o⟩
      exact hfreeze.bind fun _ _ => .done hfirst
    | _ => exact .done hfirst
  | isFrozen =>
    cases first with
    | object id =>
      exact (tracks_object (.inl hfirst)).bind fun o _ => follows_pure trivial (by rw [Object.isFrozen_image]; rfl)
    | _ => exact .done trivial
  | preventExtensions =>
    cases first with
    | object id =>
      refine (tracks_checkMutable (.inl hfirst)).bind fun _ _ => ?_
      have hclose : (modifyObject id fun o => { o with extensible := false }).Tracks e
          (modifyObject (e.object id) fun o => { o with extensible := false }) :=
        tracks_modifyObject hfirst (.asked .close) fun o ho =>
          have hslots : Within e { o with extensible := false } := { ho with }
          ⟨hslots, rfl⟩
      exact hclose.bind fun _ _ => .done hfirst
    | _ => exact .done hfirst
  | isExtensible =>
    cases first with
    | object id => exact (tracks_object (.inl hfirst)).bind fun o _ => .done trivial
    | _ => exact .done trivial
  | create =>
    refine (tracks_prototypeArgument hfirst).bind fun prototype hprototype => ?_
    refine (tracks_newObject hprototype).bind fun id hid => ?_
    have hlast : (pure (.object id) : Eval Value).Tracks e (pure (.object (e.object id))) :=
      .done (Value.within_object hid)
    refine Follows.ite (by rw [Value.isUndefined_image]) (fun _ => ?_) fun _ => hlast
    exact (tracks_defineAll hid hsecond).bind fun _ _ => hlast
  | getPrototypeOf => exact (tracks_toObject hfirst).bind fun id hid => tracks_prototypeValue hid
  | setPrototypeOf =>
    refine Follows.ite (by rw [Value.isNullish_image]) (fun _ => follows_throwTypeError _) fun _ => ?_
    refine (tracks_prototypeArgument hsecond).bind fun prototype hprototype => ?_
    cases first with
    | object id => exact (tracks_setPrototype hfirst hprototype).bind fun _ _ => .done hfirst
    | _ => exact .done hfirst
  | defineProperty =>
    cases first with
    | object id =>
      refine (tracks_toKey hsecond).bind fun key _ => ?_
      refine (tracks_toDescriptor (within_argument hargs 2)).bind fun d hd => ?_
      exact (tracks_defineOrThrow hfirst key hd).bind fun _ _ => .done hfirst
    | _ => exact follows_throwTypeError _
  | defineProperties =>
    cases first with
    | object id => exact (tracks_defineAll hfirst hsecond).bind fun _ _ => .done hfirst
    | _ => exact follows_throwTypeError _
  | getOwnPropertyNames =>
    refine (tracks_toObject hfirst).bind fun id hid => (tracks_object (.inl hid)).bind fun o _ => ?_
    rw [Object.stringKeys_image]
    exact tracks_strings _
  | getOwnPropertySymbols =>
    refine (tracks_toObject hfirst).bind fun id hid => (tracks_object (.inl hid)).bind fun o _ => ?_
    have hsymbols : Within e (o.symbolKeys.map Value.symbol) := fun v hv => by
      obtain ⟨symbol, -, rfl⟩ := List.mem_map.mp hv
      exact trivial
    have htracks := tracks_newArray (within_toArray hsymbols)
    have himage : image e (o.symbolKeys.map Value.symbol).toArray =
        ((image e o).symbolKeys.map Value.symbol).toArray := by
      rw [image_toArray, Object.symbolKeys_image, image_list, image_list, List.map_map, List.map_map]
      rfl
    rwa [himage] at htracks
  | getOwnPropertyDescriptor =>
    refine (tracks_toObject hfirst).bind fun id hid => (tracks_toKey hsecond).bind fun key _ => ?_
    refine (tracks_object (.inl hid)).bind fun o ho => ?_
    have hown := Object.within_own? ho key
    rw [Object.own?_image]
    cases hp : o.own? key with
    | none => exact .done trivial
    | some p => exact tracks_ofProperty (hown p hp)
  | fromEntries => exact (tracks_iterate hfirst _).bind fun entries hentries => tracks_ofEntries hentries
  | is => exact follows_pure trivial (congrArg Value.boolean (Value.sameValue_image hfirst hsecond))
  | hasOwnProperty =>
    refine (tracks_toKey hfirst).bind fun key _ => (tracks_toObject hreceiver).bind fun id hid => ?_
    exact (tracks_object (.inl hid)).bind fun o _ => follows_pure trivial (by rw [Object.hasOwn_image]; rfl)
  | isPrototypeOf =>
    cases first with
    | object child =>
      refine (tracks_toObject hreceiver).bind fun id hid => ?_
      exact (tracks_inheritsFrom hfirst hid).bind fun _ _ => .done trivial
    | _ => exact .done trivial
  | propertyIsEnumerable =>
    refine (tracks_toKey hfirst).bind fun key _ => (tracks_toObject hreceiver).bind fun id hid => ?_
    exact (tracks_object (.inl hid)).bind fun o _ => follows_pure trivial (by rw [Object.isEnumerable_image]; rfl)
  | toString => exact (tracks_taggedText hreceiver).bind fun _ _ => .done trivial
  | toLocaleString =>
    exact (tracks_getNamed hreceiver "toString").bind fun f hf => tracks_call hf hreceiver within_empty (by simp)
  | valueOf => exact (tracks_toObject hreceiver).bind fun id hid => .done (Value.within_object hid)

end GuestScript
