import GuestScript.Proofs.Mirror.Sound

/-!
# The first machine on mirrors

The built-in objects are made by an action like any other, and it does the same on mirrors: all that it mentions are
intrinsic objects, which no embedding moves, and objects that it has made itself.
-/

namespace GuestScript

variable {e : Embedding}

/-! ## 1. Intrinsic objects -/

namespace Intrinsic

theorem within_textFunction {c : Callable} (hc : Within e c) : Within e (textFunction c) :=
  { Object.within_default with
    prototype := within_intrinsic _, callable := within_some.mpr hc,
    properties := within_singleton ⟨trivial, trivial⟩ }

theorem within_object (i : Intrinsic) : Within e i.object := by
  have hbase : Within e (some objectPrototype.id) := within_intrinsic _
  cases i with
  | objectPrototype => exact Object.within_default
  | functionPrototype => exact { Object.within_default with prototype := hbase, callable := within_some.mpr trivial }
  | errorPrototype kind =>
    cases kind with
    | error => exact Object.within_plain hbase
    | _ => exact Object.within_plain (within_intrinsic (errorPrototype .error))
  | arrayPrototype =>
    exact { Object.within_default with prototype := hbase, elements := within_some.mpr within_empty }
  | stringPrototype | numberPrototype | booleanPrototype =>
    exact { Object.within_default with prototype := hbase, primitive := within_some.mpr trivial }
  | symbolPrototype | datePrototype | regexPrototype | collectionPrototype =>
    exact { Object.within_default with prototype := hbase }
  | evalText | makeFunction => exact within_textFunction trivial

theorem image_object (i : Intrinsic) : i.object = image e i.object := by
  cases i with
  | errorPrototype kind => cases kind <;> simp [object]
  | evalText | makeFunction =>
    simp only [object, textFunction, Object.image_mk, image_some, image_objectId, object_intrinsic]
    simp [image_array]
    rfl
  | functionPrototype =>
    simp [object]
    rfl
  | _ => simp [object, image_array]

end Intrinsic

/-! ## 2. Putting functions on objects -/

namespace Eval

theorem tracks_defineGlobal (name : String) {v : Value} (hv : Within e v) :
    (defineGlobal name v).Tracks e (defineGlobal name (image e v)) :=
  .update (.global name hv)

theorem tracks_builtin (b : Builtin) : (newFunction (.builtin b)).Tracks e (newFunction (.builtin b)) :=
  tracks_newFunction (c := .builtin b) trivial

theorem tracks_installMethods {target : ObjectId} (htarget : e.Open target) (methods : List Builtin) :
    (installMethods target methods).Tracks e (installMethods (e.object target) methods) :=
  tracks_forM_same fun b _ => (tracks_builtin b).bind fun _ hid => tracks_insertHidden htarget b.name
    (Value.within_object hid)

theorem tracks_installGetter {target : ObjectId} (htarget : e.Open target) (name : String) (b : Builtin) :
    (installGetter target name b).Tracks e (installGetter (e.object target) name b) := by
  refine (tracks_builtin b).bind fun id hid => ?_
  have hp : Within e ({ content := .accessor (.object id) .undefined, enumerable := false, configurable := true } :
      Property) := ⟨hid, trivial⟩
  exact tracks_insert htarget name hp

theorem tracks_installConstant {target : ObjectId} (htarget : e.Open target) (name : String) {v : Value}
    (hv : Within e v) :
    (installConstant target name v).Tracks e (installConstant (e.object target) name (image e v)) :=
  have hp : Within e (Property.data v false false false) := hv
  tracks_insert htarget name hp

theorem tracks_installTag {target : ObjectId} (htarget : e.Open target) (tag : String) :
    (installTag target tag).Tracks e (installTag (e.object target) tag) := by
  have hp : Within e (Property.data (.string tag) false false true) := trivial
  exact tracks_modifyObject htarget (Object.SetUp.store _ _).written fun o ho =>
    ⟨Object.within_store ho _ hp,
      Object.store_image o (.symbol (.wellKnown .toStringTag)) (.data (.string tag) false false true)⟩

theorem tracks_installConstructor (b : Builtin) {prototype parent : ObjectId} (hprototype : e.Open prototype)
    (hparent : e.Open parent) :
    (installConstructor b prototype parent).Tracks e
      (installConstructor b (e.object prototype) (e.object parent)) := by
  have hb : Within e (Callable.builtin b) := trivial
  have himage := image_functionObject (e := e) (.builtin b) parent
  refine (tracks_allocate (within_functionObject hb hparent) himage).bind fun id hid => ?_
  refine (tracks_installConstant hid "prototype" (Value.within_object hprototype)).bind fun _ _ => ?_
  refine (tracks_insertHidden hprototype "constructor" (Value.within_object hid)).bind fun _ _ => ?_
  exact (tracks_defineGlobal b.name (Value.within_object hid)).bind fun _ _ => .done hid

theorem tracks_installNamespace (name : String) (methods : List Builtin) :
    (installNamespace name methods).Tracks e (installNamespace name methods) :=
  tracks_newPlain.bind fun _ hid => (tracks_installMethods hid methods).bind fun _ _ =>
    (tracks_defineGlobal name (Value.within_object hid)).bind fun _ _ => .done hid

/-! ### On intrinsic objects -/

section

variable (i : Intrinsic)

theorem tracks_intrinsicMethods (methods : List Builtin) :
    (installMethods i.id methods).Tracks e (installMethods i.id methods) := by
  have h := tracks_installMethods (e.intrinsic_open i) methods
  rwa [object_intrinsic] at h

theorem tracks_intrinsicGetter (name : String) (b : Builtin) :
    (installGetter i.id name b).Tracks e (installGetter i.id name b) := by
  have h := tracks_installGetter (e.intrinsic_open i) name b
  rwa [object_intrinsic] at h

theorem tracks_intrinsicTag (tag : String) : (installTag i.id tag).Tracks e (installTag i.id tag) := by
  have h := tracks_installTag (e.intrinsic_open i) tag
  rwa [object_intrinsic] at h

theorem tracks_intrinsicConstructor (b : Builtin) :
    (installConstructor b i.id).Tracks e (installConstructor b i.id) := by
  have h := tracks_installConstructor b (e.intrinsic_open i) (e.intrinsic_open .functionPrototype)
  rwa [object_intrinsic, object_intrinsic] at h

theorem tracks_intrinsicInsert (name : String) (p : Property) (hp : Within e p) (himage : image e p = p) :
    (modifyObject i.id fun o => o.insert name p).Tracks e (modifyObject i.id fun o => o.insert name p) := by
  have h := tracks_insert (e.intrinsic_open i) name hp
  rwa [object_intrinsic, himage] at h

end

/-! ## 3. The families -/

/-- A constructor, functions on it and functions on its prototype, as most families are put together. -/
theorem tracks_family (make : Builtin) (prototype : Intrinsic) (own shared : List Builtin) :
    (do
      let constructor ← installConstructor make prototype.id
      installMethods constructor own
      installMethods prototype.id shared : Eval Unit).Tracks e
    (do
      let constructor ← installConstructor make prototype.id
      installMethods constructor own
      installMethods prototype.id shared) :=
  (tracks_intrinsicConstructor prototype make).bind fun _ hid => (tracks_installMethods hid own).bind fun _ _ =>
    tracks_intrinsicMethods prototype shared

theorem tracks_installFunctionPrototype : installFunctionPrototype.Tracks e installFunctionPrototype := by
  refine (tracks_intrinsicMethods .functionPrototype _).bind fun _ _ => ?_
  have h := tracks_insertHidden (e.intrinsic_open .functionPrototype) "constructor"
    (Value.within_object (e.intrinsic_open .makeFunction))
  rwa [Value.image_object, object_intrinsic, object_intrinsic] at h

theorem tracks_numberConstants {id : ObjectId} (hid : e.Open id) (constants : List (String × Float)) :
    (constants.forM fun entry => installConstant id entry.1 (.number entry.2)).Tracks e
      (constants.forM fun entry => installConstant (e.object id) entry.1 (.number entry.2)) :=
  tracks_forM_same fun entry _ => tracks_installConstant hid entry.1 (Value.within_number entry.2)

theorem tracks_installNumber : installNumber.Tracks e installNumber :=
  (tracks_intrinsicConstructor .numberPrototype _).bind fun _ hid => (tracks_numberConstants hid _).bind fun _ _ =>
    (tracks_installMethods hid _).bind fun _ _ => (tracks_intrinsicMethods .numberPrototype _).bind fun _ _ => .done hid

theorem tracks_installBoolean : installBoolean.Tracks e installBoolean :=
  (tracks_intrinsicConstructor .booleanPrototype _).discard.bind fun _ _ => tracks_intrinsicMethods .booleanPrototype _

theorem tracks_installSymbol : installSymbol.Tracks e installSymbol := by
  refine (tracks_intrinsicConstructor .symbolPrototype _).bind fun id hid => ?_
  refine (tracks_forM_same fun s _ => ?_).bind fun _ _ => ?_
  · have hv : Within e (Value.symbol (.wellKnown s)) := trivial
    exact tracks_installConstant hid s.name hv
  refine (tracks_installMethods hid _).bind fun _ _ => (tracks_intrinsicMethods .symbolPrototype _).bind fun _ _ => ?_
  exact (tracks_intrinsicGetter .symbolPrototype _ _).bind fun _ _ => tracks_intrinsicTag .symbolPrototype _

theorem tracks_installError (kind : ErrorKind) {parent : ObjectId} (hparent : e.Open parent) :
    (installError kind parent).Tracks e (installError kind (e.object parent)) := by
  have hnames : (modifyObject (Intrinsic.errorPrototype kind).id fun o =>
        (o.insertHidden "name" (.string kind.name)).insertHidden "message" (.string "")).Tracks e
      (modifyObject (e.object (Intrinsic.errorPrototype kind).id) fun o =>
        (o.insertHidden "name" (.string kind.name)).insertHidden "message" (.string "")) := by
    have hset : Object.SetUp fun o =>
        (o.insertHidden "name" (.string kind.name)).insertHidden "message" (.string "") :=
      .andThen (.insert "name" _) (.insert "message" _)
    refine tracks_modifyObject (e.intrinsic_open _) hset.written fun o ho => ?_
    have hname := Object.within_insertHidden ho "name" (Value.within_string kind.name)
    refine ⟨Object.within_insertHidden hname "message" (Value.within_string ""), ?_⟩
    have himage : (image e o).insertHidden "name" (.string kind.name) =
        image e (o.insertHidden "name" (.string kind.name)) := Object.insertHidden_image o "name" (.string kind.name)
    rw [himage]
    exact Object.insertHidden_image _ "message" (.string "")
  rw [object_intrinsic] at hnames
  have hconstructor := tracks_installConstructor (.makeError kind) (e.intrinsic_open (.errorPrototype kind)) hparent
  rw [object_intrinsic] at hconstructor
  exact hnames.bind fun _ _ => hconstructor

theorem tracks_installErrors : installErrors.Tracks e installErrors := by
  have hbase := tracks_installError .error (e.intrinsic_open .functionPrototype)
  rw [object_intrinsic] at hbase
  refine hbase.bind fun base hbase => ?_
  exact (tracks_intrinsicMethods (.errorPrototype .error) _).bind fun _ _ => tracks_forM_same fun kind _ =>
    (tracks_installError kind hbase).discard

theorem tracks_installMath : installMath.Tracks e installMath := by
  refine (tracks_installNamespace _ _).bind fun id hid => (tracks_numberConstants hid _).bind fun _ _ => ?_
  have hsort : (modifyObject id fun o => { o with sort := .math }).Tracks e
      (modifyObject (e.object id) fun o => { o with sort := .math }) :=
    tracks_modifyObject hid (Object.SetUp.become _ fun _ => ⟨_, _, _, _, _, rfl, fun h => h⟩).written fun o ho =>
      have hslots : Within e { o with sort := .math } := { ho with }
      ⟨hslots, rfl⟩
  exact hsort.bind fun _ _ => tracks_installTag hid "Math"

theorem tracks_installJson : installJson.Tracks e installJson :=
  (tracks_installNamespace _ _).bind fun _ hid => tracks_installTag hid "JSON"

theorem tracks_installRegex : installRegex.Tracks e installRegex :=
  (tracks_intrinsicConstructor .regexPrototype _).discard.bind fun _ _ =>
    (tracks_intrinsicMethods .regexPrototype _).bind fun _ _ =>
      tracks_forM_same fun entry _ => tracks_intrinsicGetter .regexPrototype entry.1 _

theorem tracks_installCollection (kind : CollectionKind) :
    (installCollection kind).Tracks e (installCollection kind) := by
  have htag := tracks_intrinsicTag (e := e) (.collectionPrototype kind) kind.name
  refine (tracks_intrinsicConstructor (.collectionPrototype kind) _).discard.bind fun _ _ => ?_
  refine (tracks_intrinsicMethods (.collectionPrototype kind) _).bind fun _ _ => ?_
  exact Follows.ite Iff.rfl (fun _ => (tracks_intrinsicGetter (.collectionPrototype kind) _ _).bind fun _ _ => htag)
    fun _ => htag

theorem tracks_installGlobals {number : ObjectId} (hnumber : e.Open number) :
    (installGlobals number).Tracks e (installGlobals (e.object number)) := by
  unfold installGlobals
  refine tracks_forM_same fun method _ => (tracks_builtin (.global method)).bind fun id hid => ?_
  have hv := Value.within_object hid
  have hlast := tracks_defineGlobal (Builtin.global method).name hv
  exact Follows.ite Iff.rfl (fun _ => (tracks_insertHidden hnumber _ hv).bind fun _ _ => hlast) fun _ => hlast

theorem tracks_installTextFunctions : installTextFunctions.Tracks e installTextFunctions := by
  have hrename (i : Intrinsic) (name : String) :
      (modifyObject i.id fun o => o.insert "name" (.data (.string name) false false true)).Tracks e
        (modifyObject i.id fun o => o.insert "name" (.data (.string name) false false true)) :=
    tracks_intrinsicInsert i "name" (.data (.string name) false false true) trivial rfl
  have hglobal (i : Intrinsic) (name : String) :
      (defineGlobal name (.object i.id)).Tracks e (defineGlobal name (.object i.id)) := by
    have h := tracks_defineGlobal name (Value.within_object (e.intrinsic_open i))
    rwa [Value.image_object, object_intrinsic] at h
  refine (hrename .evalText _).bind fun _ _ => (hglobal .evalText _).bind fun _ _ => ?_
  have hprototype := tracks_installConstant (e.intrinsic_open .makeFunction) "prototype"
    (Value.within_object (e.intrinsic_open .functionPrototype))
  rw [Value.image_object, object_intrinsic, object_intrinsic] at hprototype
  exact (hrename .makeFunction _).bind fun _ _ => hprototype.bind fun _ _ => hglobal .makeFunction _

/-- **The built-in objects are made in the same way on mirrors.** -/
theorem tracks_installAll : installAll.Tracks e installAll := by
  have hvalue (name : String) (v : Value) (hv : Within e v) (himage : image e v = v) :
      (defineGlobal name v).Tracks e (defineGlobal name v) := by
    have h := tracks_defineGlobal name hv
    rwa [himage] at h
  refine (tracks_forM_same fun i _ => ?_).bind fun _ _ => ?_
  · exact (tracks_allocate i.within_object i.image_object).discard
  refine (hvalue "undefined" .undefined trivial rfl).bind fun _ _ => ?_
  refine (hvalue "NaN" (.number Number.nan) trivial rfl).bind fun _ _ => ?_
  refine (hvalue "Infinity" (.number Number.infinity) trivial rfl).bind fun _ _ => ?_
  refine (tracks_family _ .objectPrototype _ _).bind fun _ _ => tracks_installFunctionPrototype.bind fun _ _ => ?_
  refine (tracks_family _ .arrayPrototype _ _).bind fun _ _ => ?_
  refine (tracks_family _ .stringPrototype _ _).bind fun _ _ => tracks_installNumber.bind fun number hnumber => ?_
  refine tracks_installBoolean.bind fun _ _ => tracks_installSymbol.bind fun _ _ => ?_
  refine tracks_installErrors.bind fun _ _ => tracks_installMath.bind fun _ _ => tracks_installJson.bind fun _ _ => ?_
  refine (tracks_family _ .datePrototype _ _).bind fun _ _ => tracks_installRegex.bind fun _ _ => ?_
  refine (tracks_forM_same fun kind _ => tracks_installCollection kind).bind fun _ _ => ?_
  exact (tracks_installGlobals hnumber).bind fun _ _ => tracks_installTextFunctions

end Eval

end GuestScript
