import GuestScript.Proofs.Mirror.Action
import GuestScript.Proofs.Mirror.State

/-!
# Operations on mirrors

The operations that code and built-in functions are made from do the same on mirrors. There is one fact for each of
them, `tracks_` and its name, and each follows from those of its parts.

The names of a scope are in an object that no script can get hold of, so reading and assigning names is not quite
reading and assigning properties. The object of such a scope has only values, so no getter and no setter is called with
it as the receiver (`tracks_readFrom?`), and a constant is not assigned (`tracks_assignName`).
-/

namespace GuestScript

variable {prototype : Option ObjectId} {scope : ScopeId} {receiver target v left right : Value} {args : Array Value}
  {o : Object} {d : Descriptor} (c : Callable) (name : String) (position : Option Position)

variable {e : Embedding}

namespace Callable

@[simp] theorem name_image : (image e c).name = c.name := by
  cases c <;> rfl

@[simp] theorem arity_image : (image e c).arity = c.arity := by
  cases c with
  | bound target receiver args name arity isConstructor => exact congrArg (arity - ·) Array.size_map
  | _ => rfl

@[simp] theorem isConstructor_image : (image e c).isConstructor = c.isConstructor := by
  cases c <;> rfl

@[simp] theorem sourceText_image : (image e c).sourceText = c.sourceText := by
  cases c <;> rfl

end Callable

/-- An object is moved slot by slot. -/
@[simp] theorem Object.image_mk (properties : Array (Key × Property)) (prototype : Option ObjectId)
    (callable : Option Callable) (elements : Option (Array Value)) (sort : ObjectClass) (extensible frozen : Bool)
    (primitive : Option Value) (mapEntries : Option (Array (Option (Value × Value))))
    (setEntries : Option (Array (Option Value))) (regex : Option Regex) :
    image e (⟨properties, prototype, callable, elements, sort, extensible, frozen, primitive, mapEntries, setEntries,
      regex⟩ : Object) =
      ⟨image e properties, image e prototype, image e callable, image e elements, sort, extensible, frozen,
        image e primitive, image e mapEntries, image e setEntries, regex⟩ := rfl

/-- The address of an intrinsic object stays. -/
@[simp] theorem object_intrinsic (i : Intrinsic) : e.object i.id = i.id :=
  e.intrinsic_fixed i

/-- An object with nothing but a prototype. -/
theorem Object.within_plain (h : Within e prototype) : Within e ({ prototype := prototype } : Object) :=
  { Object.within_default with prototype := h }

theorem within_intrinsic (i : Intrinsic) : Within e (some i.id) :=
  within_some.mpr (e.intrinsic_open i)

namespace Eval

variable {α : Type} {P : α → Prop} {g : α → α} {x x' : Eval α}

/-! ## 1. Steps and frames -/

theorem tracks_unit : (pure () : Eval Unit).Tracks e (pure ()) :=
  .done trivial

theorem follows_charge : charge.Follows e (fun _ => True) id charge :=
  .charge

theorem tracks_tick : (tick position).Tracks e (tick position) :=
  follows_charge.bind fun _ _ =>
    match position with
    | none => .done trivial
    | some p => .update (.position p)

theorem follows_inScope (hscope : e.Scoped scope) (hx : x.Follows e P g x') :
    (inScope scope x).Follows e P g (inScope (e.scope scope) x') :=
  have hframe : Within e (Frame.scope scope) := hscope
  .within hframe (fun h : false = true => nomatch h) hx

/-- In a scope that is not clear, names can be bound in the current scope itself. -/
theorem follows_inSolid (hscope : e.Solid scope) (hx : x.FollowsAs e true P g x') :
    (inScope scope x).Follows e P g (inScope (e.scope scope) x') :=
  have hframe : Within e (Frame.scope scope) := hscope.1
  .within hframe (fun _ => hscope) hx

theorem follows_inFrame (hscope : e.Scoped scope) (hreceiver : Within e receiver) (hx : x.Follows e P g x') :
    (inFrame scope receiver x).Follows e P g (inFrame (e.scope scope) (image e receiver) x') :=
  have hframe : Within e (Frame.receiver scope receiver) := ⟨hscope, hreceiver⟩
  .within hframe (fun h : false = true => nomatch h) hx

theorem follows_inSolidFrame (hscope : e.Solid scope) (hreceiver : Within e receiver) (hx : x.FollowsAs e true P g x') :
    (inFrame scope receiver x).Follows e P g (inFrame (e.scope scope) (image e receiver) x') :=
  have hframe : Within e (Frame.receiver scope receiver) := ⟨hscope.1, hreceiver⟩
  .within hframe (fun _ => hscope) hx

theorem follows_withNewTarget {here : Bool} {target : Option ObjectId} (htarget : Within e target)
    (hx : x.FollowsAs e here P g x') :
    (withNewTarget target x).FollowsAs e here P g (withNewTarget (image e target) x') :=
  have hframe : Within e (Frame.target target) := htarget
  .within hframe id hx

theorem tracks_call {function : Value} {args' : Array Value} (hfunction : Within e function)
    (hreceiver : Within e receiver) (hargs : Within e args) (heq : args' = image e args) :
    (call function receiver args).Tracks e (call (image e function) (image e receiver) args') := by
  have hrequest : Within e (Request.call function receiver args) := ⟨hfunction, hreceiver, hargs⟩
  rw [heq]
  exact .ask hrequest

theorem tracks_construct {function : Value} (hfunction : Within e function) (hargs : Within e args) :
    (construct function args).Tracks e (construct (image e function) (image e args)) :=
  have hrequest : Within e (Request.construct function args) := ⟨hfunction, hargs⟩
  .ask hrequest

theorem tracks_initParent {parent : ObjectId} (hparent : e.Open parent) (hreceiver : Within e receiver)
    (hargs : Within e args) :
    (initParent parent receiver args).Tracks e
      (initParent (e.object parent) (image e receiver) (image e args)) :=
  have hrequest : Within e (Request.initParent parent receiver args) := ⟨hparent, hreceiver, hargs⟩
  .ask hrequest

theorem tracks_evalText {code : Option Value} (hcode : Within e code) (hscope : e.Scoped scope)
    (hreceiver : Within e receiver) :
    (evalText code scope receiver).Tracks e (evalText (image e code) (e.scope scope) (image e receiver)) :=
  have hrequest : Within e (Request.evalText code scope receiver) := ⟨hcode, hscope, hreceiver⟩
  .ask hrequest

/-! ## 2. Objects -/

theorem tracks_object {id : ObjectId} (hid : e.Holds id) : (object id).Tracks e (object (e.object id)) :=
  .read fun _ _ h => ⟨h.within_object hid, h.object hid⟩

theorem tracks_allocate {o' : Object} (ho : Within e o) (heq : o' = image e o) :
    (allocate o).Tracks e (allocate o') := by
  rw [heq]
  exact .update (.allocate ho)

theorem follows_updateObject {id : ObjectId} (hid : e.Open id) {f f' : Object → Object × α} (hw : Object.Written f)
    (hf : ∀ o, Within e o → Within e (f o).1 ∧ P (f o).2 ∧ f' (image e o) = (image e (f o).1, g (f o).2)) :
    (updateObject id f).Follows e P g (updateObject (e.object id) f') :=
  .update (.object hid hw hf)

theorem tracks_modifyObject {id : ObjectId} (hid : e.Open id) {f f' : Object → Object}
    (hw : Object.Written fun o => (f o, ()))
    (hf : ∀ o, Within e o → Within e (f o) ∧ f' (image e o) = image e (f o)) :
    (modifyObject id f).Tracks e (modifyObject (e.object id) f') :=
  follows_updateObject hid hw fun o ho => ⟨(hf o ho).1, trivial, congrArg (·, ()) (hf o ho).2⟩

theorem tracks_insert {id : ObjectId} (hid : e.Open id) (name : String) {p : Property} (hp : Within e p) :
    (modifyObject id fun o => o.insert name p).Tracks e
      (modifyObject (e.object id) fun o => o.insert name (image e p)) :=
  tracks_modifyObject hid (Object.SetUp.insert name _).written fun o ho => ⟨Object.within_insert ho name hp, Object.insert_image o name p⟩

theorem tracks_insertValue {id : ObjectId} (hid : e.Open id) (name : String) (hv : Within e v) :
    (modifyObject id fun o => o.insertValue name v).Tracks e
      (modifyObject (e.object id) fun o => o.insertValue name (image e v)) :=
  tracks_modifyObject hid (Object.SetUp.insert name _).written fun o ho => ⟨Object.within_insertValue ho name hv, Object.insertValue_image o name v⟩

theorem tracks_insertHidden {id : ObjectId} (hid : e.Open id) (name : String) (hv : Within e v) :
    (modifyObject id fun o => o.insertHidden name v).Tracks e
      (modifyObject (e.object id) fun o => o.insertHidden name (image e v)) :=
  tracks_modifyObject hid (Object.SetUp.insert name _).written fun o ho => ⟨Object.within_insertHidden ho name hv, Object.insertHidden_image o name v⟩

theorem tracks_newObject (h : Within e prototype) : (newObject prototype).Tracks e (newObject (image e prototype)) :=
  tracks_allocate (Object.within_plain h) (by simp)

theorem tracks_newPlain : newPlain.Tracks e newPlain :=
  tracks_allocate (Object.within_plain (within_intrinsic _)) (by simp)

theorem tracks_newArray {elements : Array Value} (h : Within e elements) :
    (newArray elements).Tracks e (newArray (image e elements)) := by
  refine (tracks_allocate ?_ ?_).bind fun id hid => .done hid
  · exact { Object.within_default with prototype := within_intrinsic _, elements := within_some.mpr h }
  · simp

theorem tracks_newArguments {elements : Array Value} (h : Within e elements) :
    (newArguments elements).Tracks e (newArguments (image e elements)) := by
  refine tracks_allocate ?_ ?_
  · exact { Object.within_default with prototype := within_intrinsic _, elements := within_some.mpr h }
  · simp

theorem image_functionObject (prototype : ObjectId) :
    functionObject (image e c) (e.object prototype) = image e (functionObject c prototype) := by
  simp [functionObject, image_array, image_some, image_objectId]

theorem within_functionObject {c : Callable} (hc : Within e c) {prototype : ObjectId} (hprototype : e.Open prototype) :
    Within e (functionObject c prototype) := by
  refine { Object.within_default with
    prototype := within_some.mpr hprototype, callable := within_some.mpr hc, properties := ?_ }
  rintro entry hentry
  simp only [functionObject, List.mem_toArray, List.mem_cons, List.not_mem_nil, or_false] at hentry
  rcases hentry with rfl | rfl <;> exact ⟨trivial, trivial⟩

theorem tracks_newFunction {c : Callable} (hc : Within e c) : (newFunction c).Tracks e (newFunction (image e c)) := by
  have hprototype := e.intrinsic_open .functionPrototype
  have himage := image_functionObject (e := e) c Intrinsic.functionPrototype.id
  rw [object_intrinsic] at himage
  refine (tracks_allocate (within_functionObject hc hprototype) himage).bind fun id hid => ?_
  cases c with
  | closure template scope receiver =>
    dsimp only
    refine Follows.ite Iff.rfl (fun _ => (tracks_allocate ?_ ?_).bind fun prototype hprototype => ?_) fun _ => .done hid
    · exact { Object.within_default with prototype := within_intrinsic _, properties := within_singleton ⟨trivial, hid⟩ }
    · simp
    · have hp : Within e (Property.data (.object prototype) true false false) := hprototype
      exact (tracks_insert hid "prototype" hp).bind fun _ _ => .done hid
  | _ => exact .done hid

theorem tracks_callable? (hv : Within e v) : (callable? v).Tracks e (callable? (image e v)) := by
  cases v with
  | object id => exact (tracks_object (.inl hv)).bind fun o ho => .done ho.callable
  | _ => exact .done within_none

theorem tracks_isCallable (hv : Within e v) : (isCallable v).Tracks e (isCallable (image e v)) :=
  (tracks_callable? hv).bind fun c _ => follows_pure trivial (isSome_image c)

theorem tracks_isConstructor (hv : Within e v) : (isConstructor v).Tracks e (isConstructor (image e v)) := by
  refine (tracks_callable? hv).bind fun c _ => ?_
  cases c with
  | none => exact .done trivial
  | some c => exact follows_pure trivial c.isConstructor_image

theorem tracks_currentReceiver : currentReceiver.Tracks e currentReceiver :=
  .read fun _ _ h => ⟨h.within_registers.2.1, h.receiver⟩

theorem tracks_constructing? (hreceiver : Within e receiver) :
    (constructing? receiver).Tracks e (constructing? (image e receiver)) := by
  refine .read fun s s' h => ?_
  have htarget := h.newTarget
  cases hs : s.newTarget with
  | none =>
    rw [hs] at htarget
    rw [htarget]
    exact ⟨within_none, rfl⟩
  | some target =>
    rw [hs] at htarget
    rw [htarget]
    cases receiver with
    | object id => exact ⟨within_some.mpr hreceiver, rfl⟩
    | _ => exact ⟨within_none, rfl⟩

/-! ## 3. Faults -/

theorem tracks_newError (kind : ErrorKind) (message : String) :
    (newError kind message).Tracks e (newError kind message) := by
  refine tracks_allocate ?_ ?_
  · exact { Object.within_default with
      prototype := within_intrinsic _, properties := within_singleton ⟨trivial, trivial⟩ }
  · simp

theorem follows_throwValue (hv : Within e v) : (throwValue v : Eval α).Follows e P g (throwValue (image e v)) :=
  have hstop : Within e (Stop.thrown v) := hv
  .stop hstop

theorem follows_exhausted : (stop .exhausted : Eval α).Follows e P g (stop .exhausted) :=
  have hstop : Within e Stop.exhausted := trivial
  .stop hstop

theorem follows_throwFault (kind : ErrorKind) (message : String) :
    (throwFault kind message : Eval α).Follows e P g (throwFault kind message) :=
  (tracks_newError kind message).bind fun _ hid => follows_throwValue (Value.within_object hid)

theorem follows_throwTypeError (message : String) :
    (throwTypeError message : Eval α).Follows e P g (throwTypeError message) :=
  follows_throwFault _ _

theorem follows_raise (d : Diagnostic) (subject : String) (position : Option Position) :
    (raise d subject position : Eval α).Follows e P g (raise d subject position) := by
  have hstop : Within e (Stop.interrupt (.of d subject position)) := trivial
  exact Follows.ite Iff.rfl (fun _ => .stop hstop) fun _ => follows_throwFault _ _

theorem tracks_display (hv : Within e v) : (display v).Tracks e (display (image e v)) :=
  .read fun _ _ h => ⟨trivial, h.display hv⟩

theorem image_position : image e position = position :=
  Option.map_id' ..

theorem tracks_lastPosition : (read State.lastPosition).Tracks e (read State.lastPosition) :=
  .read fun _ _ h => ⟨fun _ _ => trivial, h.lastPosition.trans (image_position _).symm⟩

theorem tracks_hideGlobal (hv : Within e v) : (hideGlobal v).Tracks e (hideGlobal (image e v)) := by
  cases v with
  | object id =>
    refine .read fun s s' h => ?_
    have hdata := h.holds_data h.within_superScope
    have hsame : e.object id = e.object (s.scopeAt s.superScope).data ↔ id = (s.scopeAt s.superScope).data :=
      ⟨e.object_injective (.inl hv) hdata, congrArg _⟩
    simp only [h.superScope, h.scope h.within_superScope, Scope.data_image, hsame]
    split
    · exact ⟨trivial, rfl⟩
    · exact ⟨hv, rfl⟩
  | _ => exact .done trivial

/-! ## 4. Lookups -/

theorem tracks_lookup? {id : ObjectId} (hid : e.Holds id) (key : Key) :
    (lookup? id key).Tracks e (lookup? (e.object id) (image e key)) :=
  .read fun _ _ h => ⟨h.within_lookup? hid key, h.lookup? hid key⟩

theorem tracks_hasProperty {id : ObjectId} (hid : e.Holds id) (key : Key) :
    (hasProperty id key).Tracks e (hasProperty (e.object id) (image e key)) :=
  .read fun _ _ h => ⟨trivial, h.hasProperty hid key⟩

theorem tracks_scopeAt {id : ScopeId} (hid : e.Solid id) : (scopeAt id).Tracks e (scopeAt (e.scope id)) :=
  .read fun _ _ h => ⟨h.within_scope hid, h.scope hid⟩

theorem tracks_currentScope : currentScope.Tracks e currentScope :=
  .read fun _ _ h => ⟨h.within_registers.1, h.current_scope⟩

theorem follows_newFrame {kind : ScopeKind} (hkind : kind.ownsNames = true) {parent : ScopeId}
    (hparent : e.Scoped parent) (frame : LexicalFrame) :
    (newFrame kind parent frame).Follows e e.Solid e.scope (newFrame kind (e.scope parent) frame) := by
  have hfollows : (Update.newFrame kind (some parent) (Scope.recordsOf frame) #[]).Follows e e.Solid e.scope
      (.newFrame kind (some (e.scope parent)) (Scope.recordsOf frame) (image e #[])) :=
    .newFrame hkind (within_some.mpr hparent) within_empty (by simp)
  rw [image_emptyArray] at hfollows
  exact .update hfollows

theorem tracks_enumerableNames {id : ObjectId} (hid : e.Open id) :
    (enumerableNames id).Tracks e (enumerableNames (e.object id)) := by
  have hread : (read fun m => m.enumerableNames? id).Follows e (fun _ => True) (fun names => names)
      (read fun m => m.enumerableNames? (e.object id)) :=
    .read fun _ _ h => ⟨trivial, h.enumerableNames? hid⟩
  refine hread.bind fun names _ => ?_
  cases names with
  | none => exact follows_exhausted
  | some names => exact follows_pure (fun _ _ => trivial) (Array.map_id _).symm

/-! ## 5. Scopes -/

theorem follows_newScope {s : Scope} (hkind : s.kind.ownsNames = false) (hs : Within e s) :
    (newScope s).Follows e e.Solid e.scope (newScope (image e s)) :=
  .update (.newScope hkind hs)

theorem tracks_changeNames {id : ScopeId} (hid : e.Solid id) {f f' : Object → Object}
    (hf : ∀ o, Within e o → Within e (f o) ∧ f' (image e o) = image e (f o))
    (hdeclares : Object.Declares f) : (changeNames id f).Tracks e (changeNames (e.scope id) f') :=
  .update (.names hid hf hdeclares)

theorem tracks_setVariable {id : ScopeId} (hid : e.Solid id) (name : String) (hv : Within e v) :
    (setVariable id name v).Tracks e (setVariable (e.scope id) name (image e v)) :=
  tracks_changeNames hid (fun o ho => ⟨Object.within_insertValue ho name hv, Object.insertValue_image o name v⟩)
    (.set name v)

theorem tracks_initializeIn {id : ScopeId} (hid : e.Solid id) (name : String) (hv : Within e v) :
    (initializeIn id name v).Tracks e (initializeIn (e.scope id) name (image e v)) :=
  (tracks_setVariable hid name hv).bind fun _ _ => .update (.unlock hid name)

/-- The names with values that an object holds. -/
theorem filter_names_image (properties : Array (Key × Property)) :
    (image e properties).filter (fun entry => entry.1.name?.isSome && !entry.2.isAccessor) =
      image e (properties.filter fun entry => entry.1.name?.isSome && !entry.2.isAccessor) := by
  apply Array.toList_inj.mp
  simp only [image_array, Array.toList_filter, Array.toList_map, List.filter_map]
  congr 2
  funext entry
  simp

theorem follows_forkScope {id : ScopeId} (hid : e.Solid id) :
    (forkScope id).Follows e e.Solid e.scope (forkScope (e.scope id)) := by
  refine (tracks_scopeAt hid).bind fun s hs => ?_
  have hheld : (read fun m => (m.objectAt s.data).properties.filter fun entry =>
        entry.1.name?.isSome && !entry.2.isAccessor).Follows e
      (fun held => Within e held ∧ ∀ entry ∈ held, entry.2.isAccessor = false) (image e)
      (read fun m => (m.objectAt (e.object s.data)).properties.filter fun entry =>
        entry.1.name?.isSome && !entry.2.isAccessor) := by
    refine .read fun m m' h => ⟨⟨fun entry hentry => ?_, fun entry hentry => ?_⟩, ?_⟩
    · exact (h.within_object hs.holds).properties entry (Array.mem_filter.mp hentry).1
    · simpa using (Bool.and_eq_true_iff.mp (Array.mem_filter.mp hentry).2).2
    · rw [h.object hs.holds]
      exact filter_names_image _
  exact hheld.bind fun held hheld => .update (.newFrame rfl hs.parent hheld.1 hheld.2)

/-! ## 6. Conversions -/

theorem tracks_readProperty (hreceiver : Within e receiver) {p : Option Property} (hp : Within e p) :
    (readProperty receiver p).Tracks e (readProperty (image e receiver) (image e p)) := by
  cases p with
  | none => exact .done trivial
  | some p =>
    have hcontent : Within e p := within_some.mp hp
    obtain ⟨content, enumerable, configurable⟩ := p
    cases content with
    | data value writable => exact .done hcontent
    | accessor getter setter =>
      cases getter with
      | object id => exact tracks_call (Value.within_object hcontent.1) hreceiver within_empty (by simp)
      | _ => exact .done trivial

/-- The value of a name, which is no getter. -/
theorem tracks_readProperty_value (receiver receiver' : Value) {p : Property} (hp : Within e p)
    (hvalue : p.isAccessor = false) :
    (readProperty receiver (some p)).Tracks e (readProperty receiver' (some (image e p))) := by
  obtain ⟨content, enumerable, configurable⟩ := p
  cases content with
  | data value writable => exact .done hp
  | accessor getter setter => cases hvalue

theorem tracks_get (htarget : Within e target) (key : Key) :
    (get target key).Tracks e (get (image e target) (image e key)) := by
  have hprototype (i : Intrinsic) (receiver : Value) (hreceiver : Within e receiver) :
      (lookup? i.id key >>= readProperty receiver).Tracks e
        (lookup? i.id (image e key) >>= readProperty (image e receiver)) := by
    have hlookup := tracks_lookup? (.inl (e.intrinsic_open i)) key
    rw [object_intrinsic] at hlookup
    exact hlookup.bind fun p hp => tracks_readProperty hreceiver hp
  cases target with
  | object id => exact (tracks_lookup? (.inl htarget) key).bind fun p hp => tracks_readProperty htarget hp
  | undefined | null =>
    refine (tracks_display htarget).bind fun text _ => ?_
    rw [Key.text_image]
    exact follows_throwTypeError _
  | string s =>
    simp only [Value.image_string, get, Key.name?_image]
    split
    · exact .done trivial
    · split
      · refine follows_pure ?_ ?_ <;> split <;> trivial
      · exact hprototype .stringPrototype (.string s) trivial
  | boolean b => exact hprototype .booleanPrototype (.boolean b) trivial
  | number x => exact hprototype .numberPrototype (.number x) trivial
  | symbol s => exact hprototype .symbolPrototype (.symbol s) trivial

theorem tracks_getNamed (htarget : Within e target) (name : String) :
    (getNamed target name).Tracks e (getNamed (image e target) name) :=
  tracks_get htarget (.string name)

theorem follows_noPrimitive : (noPrimitive : Eval α).Follows e P g noPrimitive :=
  follows_throwTypeError _

theorem tracks_primitiveBy? (hv : Within e v) (name : String) :
    (primitiveBy? v name).Tracks e (primitiveBy? (image e v) name) := by
  refine (tracks_getNamed hv name).bind fun method hmethod => (tracks_isCallable hmethod).bind fun isFunction _ => ?_
  refine Follows.ite Iff.rfl (fun _ => ?_) fun _ => .done within_none
  refine (tracks_call hmethod hv within_empty (by simp)).bind fun result hresult => follows_pure ?_ ?_
  · split
    · exact within_none
    · exact within_some.mpr hresult
  · rw [Value.isObject_image]
    split <;> rfl

theorem tracks_toPrimitive (hv : Within e v) (hint : Hint) :
    (toPrimitive v hint).Tracks e (toPrimitive (image e v) hint) := by
  cases v with
  | object id =>
    refine (tracks_get hv (.symbol (.wellKnown .toPrimitive))).bind fun convert hconvert => ?_
    refine Follows.ite (by rw [Value.isNullish_image]) (fun _ => ?_) fun _ => ?_
    · have hhint : Within e (Value.string hint.text) := trivial
      refine (tracks_call hconvert hv (within_singleton hhint) (by simp)).bind fun result hresult => ?_
      exact Follows.ite (by rw [Value.isObject_image]) (fun _ => follows_noPrimitive) fun _ => .done hresult
    · refine (tracks_object (.inl hv)).bind fun o _ => ?_
      rw [Object.sort_image]
      dsimp only
      refine (tracks_primitiveBy? hv _).bind fun first hfirst => ?_
      cases first with
      | some p => exact .done (within_some.mp hfirst)
      | none =>
        refine (tracks_primitiveBy? hv _).bind fun second hsecond => ?_
        cases second with
        | some p => exact .done (within_some.mp hsecond)
        | none => exact follows_noPrimitive
  | _ => exact .done trivial

theorem tracks_primitiveToNumber (v : Value) :
    (primitiveToNumber v).Tracks e (primitiveToNumber (image e v)) := by
  cases v with
  | symbol s => exact follows_throwTypeError _
  | _ => exact .done trivial

theorem tracks_toNumber (hv : Within e v) : (toNumber v).Tracks e (toNumber (image e v)) := by
  cases v with
  | object id => exact (tracks_toPrimitive hv .number).bind fun p _ => tracks_primitiveToNumber p
  | symbol s => exact tracks_primitiveToNumber (.symbol s)
  | _ => exact .done trivial

theorem tracks_toInteger (hv : Within e v) : (toInteger v).Tracks e (toInteger (image e v)) :=
  (tracks_toNumber hv).bind fun _ _ => .done trivial

theorem tracks_primitiveToText (v : Value) : (primitiveToText v).Tracks e (primitiveToText (image e v)) := by
  cases v with
  | symbol s => exact follows_throwTypeError _
  | _ => exact .done trivial

theorem tracks_toText (hv : Within e v) : (toText v).Tracks e (toText (image e v)) := by
  cases v with
  | object id => exact (tracks_toPrimitive hv .string).bind fun p _ => tracks_primitiveToText p
  | symbol s => exact tracks_primitiveToText (.symbol s)
  | _ => exact .done trivial

theorem tracks_primitiveToKey (v : Value) : (primitiveToKey v).Tracks e (primitiveToKey (image e v)) := by
  cases v with
  | symbol s => exact .done trivial
  | _ => exact (tracks_primitiveToText _).bind fun _ _ => .done trivial

theorem tracks_toKey (hv : Within e v) : (toKey v).Tracks e (toKey (image e v)) := by
  cases v with
  | object id => exact (tracks_toPrimitive hv .string).bind fun p _ => tracks_primitiveToKey p
  | string s => exact .done trivial
  | undefined => exact tracks_primitiveToKey .undefined
  | null => exact tracks_primitiveToKey .null
  | boolean b => exact tracks_primitiveToKey (.boolean b)
  | number x => exact tracks_primitiveToKey (.number x)
  | symbol s => exact tracks_primitiveToKey (.symbol s)

theorem tracks_toObject (hv : Within e v) : (toObject v).Tracks e (toObject (image e v)) := by
  have hwrapper (i : Intrinsic) (sort : ObjectClass) :
      (allocate { prototype := some i.id, sort := sort, primitive := some v }).Tracks e
        (allocate { prototype := some i.id, sort := sort, primitive := some (image e v) }) := by
    refine tracks_allocate ?_ ?_
    · exact { Object.within_default with prototype := within_intrinsic i, primitive := within_some.mpr hv }
    · simp
  cases v with
  | object id => exact .done hv
  | undefined | null => exact (tracks_display hv).bind fun _ _ => follows_throwTypeError _
  | boolean b => exact hwrapper .booleanPrototype .boolean
  | number x => exact hwrapper .numberPrototype .number
  | string s => exact hwrapper .stringPrototype .string
  | symbol s => exact hwrapper .symbolPrototype .symbol

theorem tracks_typeName (hv : Within e v) : (typeName v).Tracks e (typeName (image e v)) := by
  cases v with
  | object id => exact (tracks_isCallable hv).bind fun _ _ => .done trivial
  | _ => exact .done trivial

/-! ## 7. Reads and writes of scripts -/

theorem tracks_checkMutable {id : ObjectId} (hid : e.Holds id) :
    (checkMutable id).Tracks e (checkMutable (e.object id)) := by
  have hlabel : (read fun m => m.realm.label? id).Follows e (fun _ => True) (fun label => label)
      (read fun m => m.realm.label? (e.object id)) :=
    .read fun _ _ h => ⟨trivial, h.label hid⟩
  refine hlabel.bind fun label _ => ?_
  cases label with
  | none => exact .done trivial
  | some name =>
    refine tracks_lastPosition.bind fun position _ => ?_
    rw [image_position]
    exact follows_raise _ _ _

theorem tracks_defineOwn {id : ObjectId} (hid : e.Open id) (key : Key) (hd : Within e d) :
    (defineOwn id key d).Tracks e (defineOwn (e.object id) (image e key) (image e d)) :=
  follows_updateObject hid (.asked (.define key d)) fun _ ho => ⟨Object.within_define ho key hd, trivial, Object.define_image ho key hd⟩

/-- To define a name that is no constant. -/
theorem tracks_defineOwn_name {id : ObjectId} (hid : e.Closed id) {name : String} (hname : ¬ e.Constant id name)
    (hd : Within e d) (hvalue : d.isAccessor = false) :
    (defineOwn id (.string name) d).Tracks e (defineOwn (e.object id) (.string name) (image e d)) := by
  refine .update (.closedObject hid (.asked (.define _ d)) (fun o ho => ?_) fun o ho => ⟨ho.define name hvalue, fun other hother => ?_⟩)
  · exact ⟨Object.within_define ho _ hd, trivial, Object.define_image ho (.string name) hd⟩
  · refine ho.own?_define_of_ne ?_ hvalue
    rintro rfl
    exact hname hother

/-- A value is written to an object if it can be defined there and only objects in reach have setters. -/
theorem tracks_putOn {id : ObjectId} (hid : e.Holds id) {key : Key}
    (hdefine : ∀ d : Descriptor, Within e d → d.isAccessor = false →
      (defineOwn id key d).Tracks e (defineOwn (e.object id) (image e key) (image e d)))
    (hsetter : ∀ s s', e.Mirrors s s' → ∀ p ∈ s.lookup? id key, p.isAccessor = true → e.Open id) (hv : Within e v) :
    (put (.object id) key v).Tracks e (put (.object (e.object id)) (image e key) (image e v)) := by
  have hvalue (writable enumerable configurable : Option Bool) :
      Within e ({ value := some v, writable := writable, enumerable := enumerable, configurable := configurable }
        : Descriptor) :=
    ⟨within_some.mpr hv, within_none, within_none⟩
  have hadd : (put.addOwn key v id).Tracks e (put.addOwn (image e key) (image e v) (e.object id)) := by
    refine (tracks_object hid).bind fun o _ => Follows.ite Iff.rfl (fun _ => ?_) fun _ => tracks_unit
    exact (hdefine (.ordinary v) (hvalue _ _ _) rfl).discard
  refine (tracks_checkMutable hid).bind fun _ _ => ?_
  refine Follows.ite (by rw [Key.isName_image]) (fun _ => tracks_unit) fun _ => ?_
  have hlookup : (lookup? id key).Follows e
      (fun p => Within e p ∧ ∀ q ∈ p, q.isAccessor = true → e.Open id) (image e)
      (lookup? (e.object id) (image e key)) :=
    .read fun s s' h => ⟨⟨h.within_lookup? hid key, hsetter s s' h⟩, h.lookup? hid key⟩
  refine hlookup.bind fun p hp => ?_
  cases p with
  | none => exact hadd
  | some p =>
    obtain ⟨hp, haccessor⟩ := hp
    have hcontent : Within e p := within_some.mp hp
    have haccessor := haccessor p rfl
    obtain ⟨content, enumerable, configurable⟩ := p
    cases content with
    | accessor getter setter =>
      cases setter with
      | object setter =>
        have htarget : Within e (Value.object id) := haccessor rfl
        exact (tracks_call (Value.within_object hcontent.2) htarget (within_singleton hv) (by simp)).discard
      | _ => exact tracks_unit
    | data old writable =>
      cases writable with
      | false => exact tracks_unit
      | true =>
        refine (tracks_object hid).bind fun o _ => ?_
        refine Follows.ite (by rw [Object.hasOwn_image]) (fun _ => ?_) fun _ => hadd
        exact (hdefine { value := some v } (hvalue _ _ _) rfl).discard

theorem tracks_put (htarget : Within e target) (key : Key) (hv : Within e v) :
    (put target key v).Tracks e (put (image e target) (image e key) (image e v)) := by
  cases target with
  | object id =>
    exact tracks_putOn (.inl htarget) (fun d hd _ => tracks_defineOwn htarget key hd) (fun _ _ _ _ _ _ => htarget) hv
  | undefined | null =>
    refine (tracks_display htarget).bind fun text _ => ?_
    rw [Key.text_image]
    exact follows_throwTypeError _
  | _ => exact tracks_unit

/-- A name of a scope that is no constant is written. -/
theorem tracks_put_name {id : ObjectId} (hid : e.Closed id) {name : String} (hname : ¬ e.Constant id name)
    (hv : Within e v) :
    (put (.object id) (.string name) v).Tracks e (put (.object (e.object id)) (.string name) (image e v)) := by
  refine tracks_putOn (.inr hid) (fun d hd hvalue => tracks_defineOwn_name hid hname hd hvalue) ?_ hv
  intro s s' h p hp haccessor
  rw [h.isAccessor_lookup? hid hp] at haccessor
  cases haccessor

theorem tracks_putNamed (htarget : Within e target) (name : String) (hv : Within e v) :
    (putNamed target name v).Tracks e (putNamed (image e target) name (image e v)) :=
  tracks_put htarget (.string name) hv

theorem tracks_defineOrThrow {id : ObjectId} (hid : e.Open id) (key : Key) (hd : Within e d) :
    (defineOrThrow id key d).Tracks e (defineOrThrow (e.object id) (image e key) (image e d)) := by
  refine (tracks_checkMutable (.inl hid)).bind fun _ _ => ?_
  refine Follows.ite (by rw [Key.isName_image]) (fun _ => tracks_unit) fun _ => ?_
  refine (tracks_defineOwn hid key hd).bind fun taken _ => Follows.ite Iff.rfl (fun _ => tracks_unit) fun _ => ?_
  rw [Key.text_image]
  exact follows_throwTypeError _

theorem tracks_deleteProperty (htarget : Within e target) (key : Key) :
    (deleteProperty target key).Tracks e (deleteProperty (image e target) (image e key)) := by
  cases target with
  | object id =>
    exact (tracks_checkMutable (.inl htarget)).bind fun _ _ =>
      follows_updateObject htarget (.asked (.delete key)) fun o ho => ⟨Object.within_delete ho key, trivial, Object.delete_image o key⟩
  | undefined | null => exact (tracks_display htarget).bind fun _ _ => follows_throwTypeError _
  | _ => exact .done trivial

theorem tracks_prototypeValue {id : ObjectId} (hid : e.Open id) :
    (prototypeValue id).Tracks e (prototypeValue (e.object id)) := by
  refine (tracks_object (.inl hid)).bind fun o ho => ?_
  have hprototype := ho.prototype
  rw [Object.prototype_image]
  cases h : o.prototype with
  | none => exact .done trivial
  | some prototype => exact .done (hprototype prototype h)

theorem tracks_getMember (htarget : Within e target) (key : Key) (position : Option Position) :
    (getMember target key position).Tracks e (getMember (image e target) (image e key) position) := by
  have hget := tracks_get htarget key
  have hplain := hget.bind fun v hv => tracks_hideGlobal hv
  have hobject := (tracks_toObject htarget).bind fun id hid => tracks_prototypeValue hid
  have hread := Follows.ite (Iff.refl (key.isName "__proto__" = true)) (fun _ => hobject) fun _ => hplain
  have hnullish := Follows.ite (Iff.refl (key.isName "__proto__" = true)) (fun _ => hget) fun _ => hplain
  unfold getMember
  simp only [Key.isName_image]
  cases target with
  | undefined | null => exact Follows.ite Iff.rfl (fun _ => hnullish) fun _ => hnullish
  | object id =>
    refine Follows.ite Iff.rfl (fun _ => ?_) fun _ => hread
    have hlabel : (read fun m => m.realm.label? id).Follows e (fun _ => True) (fun label => label)
        (read fun m => m.realm.label? (e.object id)) :=
      .read fun _ _ h => ⟨trivial, h.label (.inl htarget)⟩
    refine hlabel.bind fun label _ => ?_
    cases label with
    | none => exact hread
    | some name =>
      have hraise : (raise .builtInPrototypeChange name position : Eval Unit).Tracks e
          (raise .builtInPrototypeChange name position) := follows_raise _ _ _
      exact hraise.bind fun _ _ => hread
  | _ => exact Follows.ite Iff.rfl (fun _ => hread) fun _ => hread

/-! ## 8. Lists of values -/

/-- Texts are no addresses. -/
theorem image_characters (s : String) : image e (characters s) = characters s := by
  simp [characters, image_array, Function.comp_def]

theorem within_characters (s : String) : Within e (characters s) := by
  intro v hv
  obtain ⟨c, -, rfl⟩ := List.mem_map.mp (List.mem_toArray.mp hv)
  exact trivial

theorem tracks_characters (s : String) : (pure (characters s) : Eval (Array Value)).Tracks e (pure (characters s)) :=
  follows_pure (within_characters s) (image_characters s).symm

/-- The entries that are there. -/
theorem image_present {β : Type} [Carried β] (entries : Array (Option β)) :
    (image e entries).toList.filterMap id = image e (entries.toList.filterMap id) := by
  simp [image_array, image_list, List.filterMap_map, List.map_filterMap, image_option]

theorem within_present {β : Type} [Carried β] {entries : Array (Option β)} (h : Within e entries) :
    Within e (entries.toList.filterMap id) := by
  intro b hb
  obtain ⟨entry, hentry, rfl⟩ := List.mem_filterMap.mp hb
  exact h _ (Array.mem_toList_iff.mp hentry) b rfl

theorem tracks_newPairs {entries : List (Value × Value)} (h : Within e entries) :
    (newPairs entries).Tracks e (newPairs (image e entries)) := by
  refine tracks_foldlM h within_empty image_emptyArray.symm fun acc entry hacc hentry => ?_
  have hpair : Within e #[entry.1, entry.2] :=
    within_toArray (within_cons.mpr ⟨hentry.1, within_cons.mpr ⟨hentry.2, within_nil⟩⟩)
  have himage : #[(image e entry).1, (image e entry).2] = image e #[entry.1, entry.2] := by
    simp [image_array]
  rw [himage]
  refine (tracks_newArray hpair).bind fun pair hpair => follows_pure (within_push hacc hpair) ?_
  exact (Array.map_push ..).symm

/-- The entries of a map. -/
def keyed? (o : Object) : Option (Array (Option (Value × Value))) :=
  if o.sort = .collection .map then o.mapEntries else none

/-- The members of a set. -/
def members? (o : Object) : Option (Array (Option Value)) :=
  if o.sort = .collection .set then o.setEntries else none

/-- An object gives its elements, else the entries of a map, else the members of a set, else the characters of a
text. -/
theorem iterate_object (id : ObjectId) (label : String) :
    iterate (.object id) label =
      (do
        let o ← object id
        match o.elements with
        | some elements => pure elements
        | none =>
          match keyed? o with
          | some entries => newPairs (presentEntries entries)
          | none =>
            match members? o with
            | some members => pure (presentMembers members).toArray
            | none =>
              match o.primitive with
              | some (.string s) => pure (characters s)
              | _ => raise .notIterable label (← read State.lastPosition)) := by
  refine congrArg (object id >>= ·) (funext fun o => ?_)
  unfold keyed? members?
  cases o.elements with
  | some elements => rfl
  | none =>
    cases o.sort with
    | collection kind =>
      cases kind <;> cases o.mapEntries <;> cases o.setEntries <;>
        first | rfl | rcases o.primitive with _ | ⟨_ | _⟩ <;> rfl
    | _ => rcases o.primitive with _ | ⟨_ | _⟩ <;> rfl

theorem keyed?_image (o : Object) : keyed? (image e o) = image e (keyed? o) := by
  unfold keyed?
  rw [Object.sort_image]
  split <;> rfl

theorem within_keyed? (ho : Within e o) : Within e (keyed? o) := by
  unfold keyed?
  split
  · exact ho.mapEntries
  · exact within_none

theorem members?_image (o : Object) : members? (image e o) = image e (members? o) := by
  unfold members?
  rw [Object.sort_image]
  split <;> rfl

theorem within_members? (ho : Within e o) : Within e (members? o) := by
  unfold members?
  split
  · exact ho.setEntries
  · exact within_none

theorem tracks_iterate (hv : Within e v) (label : String) : (iterate v label).Tracks e (iterate (image e v) label) := by
  have hraise : (do raise .notIterable label (← read State.lastPosition) : Eval (Array Value)).Tracks e
      (do raise .notIterable label (← read State.lastPosition)) := by
    refine tracks_lastPosition.bind fun position _ => ?_
    rw [image_position]
    exact follows_raise _ _ _
  cases v with
  | string s => exact tracks_characters s
  | object id =>
    rw [Value.image_object, iterate_object, iterate_object]
    refine (tracks_object (.inl hv)).bind fun o ho => ?_
    have hentries := within_keyed? ho
    have hmembers := within_members? ho
    rw [Object.elements_image, keyed?_image, members?_image, Object.primitive_image]
    cases helements : o.elements with
    | some elements => exact .done (ho.elements elements helements)
    | none =>
      cases hkeyed : keyed? o with
      | some entries =>
        have hpresent := tracks_newPairs (within_present (hentries entries hkeyed))
        rwa [← image_present] at hpresent
      | none =>
        cases hset : members? o with
        | some members =>
          refine follows_pure (within_toArray (within_present (hmembers members hset))) ?_
          exact (congrArg List.toArray (image_present members)).trans List.map_toArray.symm
        | none =>
          cases o.primitive with
          | none => exact hraise
          | some w =>
            cases w with
            | string s => exact tracks_characters s
            | _ => exact hraise
  | _ => exact hraise

theorem tracks_readElements {target : Value} (htarget : Within e target) : ∀ (count i : Nat) {acc : Array Value},
    Within e acc → (readElements target count i acc).Tracks e (readElements (image e target) count i (image e acc))
  | 0, _, _, hacc => .done hacc
  | count + 1, i, acc, hacc =>
    follows_charge.bind fun _ _ => (tracks_get htarget (.index i)).bind fun v hv => by
      have hrest := tracks_readElements htarget count (i + 1) (within_push hacc hv)
      rwa [image_array, Array.map_push] at hrest

theorem tracks_listOf (hv : Within e v) : (listOf v).Tracks e (listOf (image e v)) := by
  cases v with
  | object id =>
    refine (tracks_object (.inl hv)).bind fun o ho => ?_
    rw [Object.elements_image]
    cases helements : o.elements with
    | some elements => exact .done (ho.elements elements helements)
    | none =>
      refine (tracks_getNamed hv "length").bind fun length hlength => (tracks_toInteger hlength).bind fun x _ => ?_
      have hread := tracks_readElements hv (if x ≥ 4294967295.0 then 4294967295 else Number.toNatural64 x) 0
        within_empty
      rwa [image_emptyArray] at hread
  | string s => exact tracks_characters s
  | _ => exact follows_pure within_empty image_emptyArray.symm

theorem tracks_enumerableKeys {id : ObjectId} (hid : e.Open id) :
    (read fun m => (m.objectAt id).enumerableKeys).Tracks e
      (read fun m => (m.objectAt (e.object id)).enumerableKeys) :=
  .read fun _ _ h => ⟨fun _ _ => trivial, by rw [h.object (.inl hid), Object.enumerableKeys_image]⟩

/-- Names are not moved. -/
theorem tracks_enumerableNames_own {id : ObjectId} (hid : e.Open id) :
    (read fun m => (m.objectAt id).enumerableNames).Follows e (fun _ => True) (fun names => names)
      (read fun m => (m.objectAt (e.object id)).enumerableNames) :=
  .read fun _ _ h => ⟨trivial, by rw [h.object (.inl hid), Object.enumerableNames_image]⟩

theorem within_ordinary (hv : Within e v) : Within e (Descriptor.ordinary v) :=
  ⟨within_some.mpr hv, within_none, within_none⟩

theorem tracks_copyProperties {target : ObjectId} (htarget : e.Open target) {source : Value}
    (hsource : Within e source) :
    (copyProperties target source).Tracks e (copyProperties (e.object target) (image e source)) := by
  refine Follows.ite (by rw [Value.isNullish_image]) (fun _ => tracks_unit) fun _ => ?_
  refine (tracks_toObject hsource).bind fun id hid => (tracks_enumerableKeys hid).bind fun keys hkeys => ?_
  refine tracks_forM hkeys fun key _ => (tracks_get (Value.within_object hid) key).bind fun v hv => ?_
  exact (tracks_defineOwn htarget key (within_ordinary hv)).discard

/-! ## 9. Operators -/

theorem booleanAsNumber_image (v : Value) : booleanAsNumber (image e v) = image e (booleanAsNumber v) := by
  cases v <;> rfl

theorem within_booleanAsNumber (hv : Within e v) : Within e (booleanAsNumber v) := by
  cases v <;> exact hv

theorem primitivesEqual_image (hleft : Within e left) (hright : Within e right) :
    primitivesEqual (image e left) (image e right) = primitivesEqual left right := by
  have hequal := Value.strictEquals_image (within_booleanAsNumber hleft) (within_booleanAsNumber hright)
  unfold primitivesEqual
  rw [Value.isNullish_image, Value.isNullish_image, booleanAsNumber_image, booleanAsNumber_image]
  split
  · rfl
  · generalize booleanAsNumber left = a, booleanAsNumber right = b at hequal
    cases a <;> cases b <;> first | rfl | exact hequal

theorem tracks_looseEquals (hleft : Within e left) (hright : Within e right) :
    (looseEquals left right).Tracks e (looseEquals (image e left) (image e right)) := by
  unfold looseEquals
  rw [Value.isNullish_image, Value.isNullish_image]
  refine Follows.ite Iff.rfl (fun _ => .done trivial) fun _ => ?_
  have hprimitives {v w : Value} (hv : Within e v) (hw : Within e w) :
      (pure (primitivesEqual v w) : Eval Bool).Tracks e (pure (primitivesEqual (image e v) (image e w))) :=
    follows_pure trivial (primitivesEqual_image hv hw)
  have hsecond (b : ObjectId) (hb : e.Open b) : (do return primitivesEqual left (← toPrimitive (.object b) .default)
        : Eval Bool).Tracks e
      (do return primitivesEqual (image e left) (← toPrimitive (.object (e.object b)) .default)) :=
    (tracks_toPrimitive (Value.within_object hb) .default).bind fun p hp => hprimitives hleft hp
  cases left with
  | object a =>
    cases right with
    | object b =>
      have hsame : e.object a = e.object b ↔ a = b := ⟨e.object_injective (.inl hleft) (.inl hright), congrArg _⟩
      exact follows_pure trivial (decide_eq_decide.mpr hsame)
    | _ => exact (tracks_toPrimitive hleft .default).bind fun p hp => hprimitives hp hright
  | _ =>
    cases right with
    | object b => exact hsecond b hright
    | _ => exact hprimitives hleft hright

theorem tracks_lessThan (hleft : Within e left) (hright : Within e right) :
    (lessThan left right).Tracks e (lessThan (image e left) (image e right)) := by
  refine (tracks_toPrimitive hleft .number).bind fun l hl => (tracks_toPrimitive hright .number).bind fun r hr => ?_
  have hnumbers : (do
        let x ← toNumber l
        let y ← toNumber r
        pure (Number.lessThan? x y)).Tracks e
      (do
        let x ← toNumber (image e l)
        let y ← toNumber (image e r)
        pure (Number.lessThan? x y)) :=
    (tracks_toNumber hl).bind fun _ _ => (tracks_toNumber hr).bind fun _ _ =>
      follows_pure (fun _ _ => trivial) Option.map_id'.symm
  cases l with
  | string a =>
    cases r with
    | string b => exact .done (within_some.mpr trivial)
    | _ => exact hnumbers
  | _ => exact hnumbers

theorem tracks_add (hleft : Within e left) (hright : Within e right) :
    (add left right).Tracks e (add (image e left) (image e right)) := by
  refine (tracks_toPrimitive hleft .default).bind fun l hl => (tracks_toPrimitive hright .default).bind fun r hr => ?_
  refine Follows.ite (by rw [Value.isString_image, Value.isString_image]) (fun _ => ?_) fun _ => ?_
  · exact (tracks_toText hl).bind fun _ _ => (tracks_toText hr).bind fun _ _ => .done trivial
  · exact (tracks_toNumber hl).bind fun _ _ => (tracks_toNumber hr).bind fun _ _ => .done trivial

theorem tracks_numeric (f : Float → Float → Float) (hleft : Within e left) (hright : Within e right) :
    (numeric f left right).Tracks e (numeric f (image e left) (image e right)) :=
  (tracks_toNumber hleft).bind fun _ _ => (tracks_toNumber hright).bind fun _ _ => .done trivial

/-- A walk along bound functions ends in the same place. -/
theorem tracks_instanceOfWithin {v : Value} (hv : Within e v) : ∀ (fuel : Nat) {target : Value}, Within e target →
    (instanceOfWithin fuel v target).Tracks e (instanceOfWithin fuel (image e v) (image e target))
  | 0, _, _ => follows_exhausted
  | fuel + 1, .object id, hid => by
    refine (tracks_lookup? (.inl hid) (.symbol (.wellKnown .hasInstance))).bind fun p hp => ?_
    have hmethod : Within e (p.bind Property.value?) := by
      cases p with
      | none => exact within_none
      | some p => exact Property.within_value? (within_some.mp hp)
    have himage : (image e p).bind Property.value? = image e (p.bind Property.value?) := by
      cases p with
      | none => rfl
      | some p => exact p.value?_image
    rw [himage]
    generalize p.bind Property.value? = method at hmethod ⊢
    by_cases hobject : ∃ id, method = some (.object id)
    · obtain ⟨method, rfl⟩ := hobject
      have hmethod : Within e (Value.object method) := within_some.mp hmethod
      refine (tracks_call hmethod (Value.within_object hid) (within_singleton hv) (by simp)).bind fun result _ => ?_
      exact follows_pure trivial result.truthy_image
    -- what is not an object is no method: the prototypes decide
    rcases method with _ | _ | _ | _ | _ | _ | _ | method
    case some.object => exact absurd ⟨method, rfl⟩ hobject
    all_goals
      refine (tracks_object (.inl hid)).bind fun o ho => ?_
      have hcallable := ho.callable
      rw [Object.callable_image]
      cases hc : o.callable with
      | none => exact follows_throwTypeError _
      | some c =>
        have hc' : Within e c := hcallable c hc
        cases c with
        | bound bound receiver args name arity isConstructor =>
          exact tracks_instanceOfWithin hv fuel (Value.within_object hc'.1)
        | _ =>
          cases v with
          | object instanceId =>
            refine (tracks_getNamed (Value.within_object hid) "prototype").bind fun prototype hprototype => ?_
            cases prototype with
            | object prototype => exact .read fun _ _ h => ⟨trivial, h.inheritsFrom hv hprototype⟩
            | _ => exact follows_throwTypeError _
          | _ => exact .done trivial
  | _ + 1, .undefined, _ | _ + 1, .null, _ | _ + 1, .boolean _, _ | _ + 1, .number _, _ | _ + 1, .string _, _
  | _ + 1, .symbol _, _ => follows_throwTypeError _

theorem tracks_instanceOf (hv : Within e v) (htarget : Within e target) :
    (instanceOf v target).Tracks e (instanceOf (image e v) (image e target)) :=
  tracks_instanceOfWithin hv _ htarget

theorem tracks_insideOf (hleft : Within e left) (hright : Within e right) :
    (insideOf left right).Tracks e (insideOf (image e left) (image e right)) := by
  cases right with
  | object id => exact (tracks_toKey hleft).bind fun key _ => tracks_hasProperty (.inl hright) key
  | _ =>
    exact (tracks_display hleft).bind fun _ _ => (tracks_display hright).bind fun _ _ => follows_throwTypeError _

theorem tracks_binary (operator : BinaryOperator) (hleft : Within e left) (hright : Within e right) :
    (binary operator left right).Tracks e (binary operator (image e left) (image e right)) := by
  have hless (f : Option Bool → Bool) {l r : Value} (hl : Within e l) (hr : Within e r) :
      (do return .boolean (f (← lessThan l r)) : Eval Value).Tracks e
        (do return .boolean (f (← lessThan (image e l) (image e r)))) := by
    refine (tracks_lessThan hl hr).bind fun order _ => ?_
    rw [show image e order = order from Option.map_id' ..]
    exact .done trivial
  cases operator with
  | equal | notEqual => exact (tracks_looseEquals hleft hright).bind fun _ _ => .done trivial
  | strictEqual => exact follows_pure trivial (congrArg Value.boolean (Value.strictEquals_image hleft hright))
  | strictNotEqual =>
    exact follows_pure trivial (congrArg (Value.boolean !·) (Value.strictEquals_image hleft hright))
  | less => exact hless (· == some true) hleft hright
  | greater => exact hless (· == some true) hright hleft
  | lessEqual => exact hless (· == some false) hright hleft
  | greaterEqual => exact hless (· == some false) hleft hright
  | add => exact tracks_add hleft hright
  | inside => exact (tracks_insideOf hleft hright).bind fun _ _ => .done trivial
  | instanceOf => exact (tracks_instanceOf hleft hright).bind fun _ _ => .done trivial
  | other text =>
    refine tracks_lastPosition.bind fun position _ => ?_
    rw [image_position]
    exact follows_raise _ _ _
  | _ => exact tracks_numeric _ hleft hright

theorem tracks_unary (operator : UnaryOperator) (hv : Within e v) (position : Option Position) :
    (unary operator v position).Tracks e (unary operator (image e v) position) := by
  cases operator with
  | minus | plus | bitNot => exact (tracks_toNumber hv).bind fun _ _ => .done trivial
  | not => exact follows_pure trivial (congrArg (Value.boolean !·) v.truthy_image)
  | typeOf => exact (tracks_typeName hv).bind fun _ _ => .done trivial
  | void | delete => exact .done trivial
  | other text => exact follows_raise _ _ _

/-! ## 10. Names -/

theorem follows_resolve (access : State.Access) (position : Option Position) :
    (resolve name access position).Follows e e.Solid e.scope (resolve name access position) := by
  have hresolve : (read fun m => m.resolve name access).Tracks e (read fun m => m.resolve name access) :=
    .read fun _ _ h => ⟨h.within_resolve name access, h.resolve name access⟩
  refine hresolve.bind fun found hfound => ?_
  cases found with
  | found scope => exact .done hfound
  | uninitialized => exact follows_raise _ _ _

/-- A name is read from its scope. No getter is called with the object of the scope as the receiver. -/
theorem tracks_readFrom? (hscope : e.Solid scope) (name : String) :
    (readFrom? scope name).Tracks e (readFrom? (e.scope scope) name) := by
  refine (tracks_scopeAt hscope).bind fun s hs => ?_
  have hlookup : (lookup? s.data (.string name)).Follows e
      (fun p => Within e p ∧ ∀ q ∈ p, q.isAccessor = true → e.Open s.data) (image e)
      (lookup? (e.object s.data) (.string name)) := by
    refine .read fun m m' h => ⟨⟨h.within_lookup? hs.holds _, fun q hq haccessor => ?_⟩, h.lookup? hs.holds (.string name)⟩
    rcases hs.holds with hopen | hclosed
    · exact hopen
    · rw [h.isAccessor_lookup? hclosed hq] at haccessor
      cases haccessor
  refine hlookup.bind fun p hp => ?_
  cases p with
  | none => exact .done within_none
  | some p =>
    obtain ⟨hp, haccessor⟩ := hp
    have hread : (readProperty (.object s.data) (some p)).Tracks e
        (readProperty (.object (e.object s.data)) (some (image e p))) := by
      cases hvalue : p.isAccessor with
      | true => exact tracks_readProperty (Value.within_object (haccessor p rfl hvalue)) hp
      | false => exact tracks_readProperty_value _ _ (within_some.mp hp) hvalue
    exact hread.bind fun v hv => (tracks_hideGlobal hv).bind fun w hw => .done (within_some.mpr hw)

/-- The value of a name is within reach, and names can be bound in its scope. -/
theorem follows_resolveValue :
    (resolveValue name position).Follows e (fun found => e.Solid found.1 ∧ Within e found.2) (image e)
      (resolveValue name position) := by
  refine (follows_resolve name .use position).bind fun scope hscope => ?_
  refine (tracks_readFrom? hscope name).bind fun v hv => ?_
  cases v with
  | none => exact follows_raise _ _ _
  | some v => exact .done ⟨hscope, within_some.mp hv⟩

theorem tracks_readName : (readName name position).Tracks e (readName name position) :=
  (follows_resolveValue name position).bind fun _ hfound => .done hfound.2

theorem tracks_readNameOrUndefined :
    (readNameOrUndefined name position).Tracks e (readNameOrUndefined name position) := by
  refine (follows_resolve name .use position).bind fun scope hscope => ?_
  refine (tracks_readFrom? hscope name).bind fun v hv => follows_pure (within_getD hv trivial) ?_
  exact getD_image v .undefined

/-- A name is assigned in its scope, if it is no constant there. -/
theorem tracks_assignName (hv : Within e v) (position : Option Position) :
    (assignName name v position).Tracks e (assignName name (image e v) position) := by
  refine (follows_resolve name .use position).bind fun scope hscope => ?_
  refine (tracks_scopeAt hscope).bind fun s hs => ?_
  have hput (hconstant : ∀ r, s.record? name = some r → r.kind ≠ .constant) :
      (put (.object s.data) (.string name) v).Tracks e
        (put (.object (e.object s.data)) (.string name) (image e v)) := by
    cases hkind : s.kind.ownsNames with
    | false => exact tracks_put (Value.within_object (hs.opened hkind)) (.string name) hv
    | true =>
      refine tracks_put_name (hs.closed hkind) (fun hname => ?_) hv
      obtain ⟨r, hr, hconst⟩ := hs.constant hkind name hname
      exact hconstant r hr hconst
  rw [Scope.record?_image, Scope.data_image]
  cases hrecord : s.record? name with
  | none => exact hput fun r hr => by rw [hrecord] at hr; cases hr
  | some r =>
    obtain ⟨initialized, kind⟩ := r
    cases kind with
    | constant => exact follows_raise _ _ _
    | _ => exact hput fun r hr => by rw [hrecord] at hr; cases hr; nofun

theorem tracks_initializeName (hv : Within e v) (position : Option Position) :
    (initializeName name v position).Tracks e (initializeName name (image e v) position) :=
  (follows_resolve name .firstWrite position).bind fun _ hscope => tracks_initializeIn hscope name hv

/-- The current scope itself is written to only where it is known not to be clear, or where no scope is. -/
theorem tracks_setLocal {here : Bool} (hhere : here = true ∨ e.Sets .parameter) (name : String) (hv : Within e v) :
    (setLocal name v).TracksAs e here (setLocal name (image e v)) := by
  have hcurrent : currentScope.FollowsAs e here e.Solid e.scope currentScope := by
    rcases hhere with rfl | hsets
    · exact .current
    · exact .read fun _ _ h => ⟨⟨h.within_registers.1, e.sets_parameter hsets _⟩, h.current_scope⟩
  exact hcurrent.bind fun _ hscope => (tracks_setVariable hscope name hv).as

/-- The functions of a body that is firm. -/
theorem tracks_instantiate {functions : List (String × Template)} (hfunctions : Template.AllFirm e.Sets functions)
    (hscope : e.Solid scope) :
    (instantiate functions scope).Tracks e (instantiate functions (e.scope scope)) := by
  refine tracks_forM_same fun entry hentry => ?_
  have hclosure : Within e (Callable.closure entry.2 scope none) :=
    ⟨Template.AllFirm.mem hfunctions hentry, hscope.1, within_none⟩
  exact (tracks_newFunction hclosure).bind fun id hid =>
    tracks_setVariable hscope entry.1 (Value.within_object hid)

theorem tracks_declareVars (names : List String) (hscope : e.Solid scope) :
    (declareVars names scope).Tracks e (declareVars names (e.scope scope)) := by
  refine tracks_forM_same fun name _ => tracks_changeNames hscope (fun o ho => ?_) (.add name)
  have hhas : (image e o).hasOwn (.string name) = o.hasOwn (.string name) := Object.hasOwn_image o (.string name)
  rw [hhas]
  split
  · exact ⟨ho, rfl⟩
  · exact ⟨Object.within_insertValue ho name trivial, Object.insertValue_image o name .undefined⟩

/-! ## 11. Regular expressions -/

theorem tracks_makeRegex (source flags : String) : (makeRegex source flags).Tracks e (makeRegex source flags) := by
  unfold makeRegex
  cases Regex.make source flags with
  | ok r => exact .done trivial
  | error message => exact follows_throwFault _ _

theorem image_regexInto (o : Object) (r : Regex) : regexInto (image e o) r = image e (regexInto o r) :=
  Object.insert_image { o with sort := .regex, regex := some r } "lastIndex" (.data (.number 0.0) true false false)

theorem within_regexInto (ho : Within e o) (r : Regex) : Within e (regexInto o r) := by
  have hslots : Within e { o with sort := .regex, regex := some r } := { ho with }
  exact Object.within_insert hslots _ trivial

theorem tracks_allocateRegex (r : Regex) :
    (allocate (regexInto { prototype := some Intrinsic.regexPrototype.id } r)).Tracks e
      (allocate (regexInto { prototype := some Intrinsic.regexPrototype.id } r)) := by
  refine tracks_allocate (within_regexInto (Object.within_plain (within_intrinsic _)) r) ?_
  rw [← image_regexInto, Object.image_mk]
  simp

theorem tracks_newRegex (source flags : String) : (newRegex source flags).Tracks e (newRegex source flags) :=
  (tracks_makeRegex source flags).bind fun r _ => (tracks_allocateRegex r).bind fun _ hid => .done hid

theorem tracks_regexOf? (hv : Within e v) : (regexOf? v).Tracks e (regexOf? (image e v)) := by
  cases v with
  | object id =>
    exact (tracks_object (.inl hv)).bind fun o _ => follows_pure (fun _ _ => trivial) Option.map_id'.symm
  | _ => exact .done within_none

theorem tracks_receiverRegex (hreceiver : Within e receiver) (name : String) :
    (receiverRegex receiver name).Tracks e (receiverRegex (image e receiver) name) := by
  refine (tracks_regexOf? hreceiver).bind fun r _ => ?_
  cases r with
  | none => exact follows_throwTypeError _
  | some r => exact .done trivial

theorem tracks_searchStart (hreceiver : Within e receiver) :
    (searchStart receiver).Tracks e (searchStart (image e receiver)) :=
  (tracks_getNamed hreceiver "lastIndex").bind fun _ hv => (tracks_toInteger hv).bind fun _ _ => .done trivial

theorem tracks_execRegex (hreceiver : Within e receiver) (input : String) :
    (execRegex receiver input).Tracks e (execRegex (image e receiver) input) := by
  refine (tracks_receiverRegex hreceiver "exec").bind fun r _ => ?_
  have hfound (found : Option Regex.Match) : (pure found : Eval (Option Regex.Match)).Tracks e (pure found) :=
    follows_pure (fun _ _ => trivial) Option.map_id'.symm
  have hnote (stop : Nat) : (putNamed receiver "lastIndex" (.ofNat stop)).Tracks e
      (putNamed (image e receiver) "lastIndex" (.ofNat stop)) := tracks_putNamed hreceiver _ trivial
  have hzero : (pure 0 : Eval Nat).Tracks e (pure 0) := .done trivial
  dsimp only [image_regex]
  refine Follows.ite Iff.rfl (fun _ => ?_) fun _ => ?_
  · refine (tracks_searchStart hreceiver).bind fun start _ => ?_
    exact Follows.ite Iff.rfl (fun _ => (hnote _).bind fun _ _ => hfound _) fun _ => hfound _
  · refine hzero.bind fun start _ => ?_
    exact Follows.ite Iff.rfl (fun _ => (hnote _).bind fun _ _ => hfound _) fun _ => hfound _

/-- Values are put into an object one after the other, moved or not. -/
theorem image_insertAll : ∀ (fields : List (String × Value)) (o : Object),
    (image e fields).foldl (fun (o : Object) entry => o.insertValue entry.1 entry.2) (image e o) =
      image e (fields.foldl (fun (o : Object) entry => o.insertValue entry.1 entry.2) o)
  | [], _ => rfl
  | (name, v) :: fields, o => by
    have hrest := image_insertAll fields (o.insertValue name v)
    rw [← Object.insertValue_image] at hrest
    exact hrest

theorem within_insertAll {fields : List (String × Value)} (hfields : Within e fields) (ho : Within e o) :
    Within e (fields.foldl (fun (o : Object) entry => o.insertValue entry.1 entry.2) o) := by
  induction fields generalizing o with
  | nil => exact ho
  | cons field fields ih =>
    obtain ⟨hfield, hrest⟩ := within_cons.mp hfields
    exact ih hrest (Object.within_insertValue ho field.1 hfield.2)

theorem image_ofText? (text : Option String) : image e (Value.ofText? text) = Value.ofText? text := by
  cases text <;> rfl

theorem within_ofText? (text : Option String) : Within e (Value.ofText? text) := by
  cases text <;> exact trivial

theorem tracks_groupsOf (m : Regex.Match) : (groupsOf m).Tracks e (groupsOf m) := by
  refine Follows.ite Iff.rfl (fun _ => ?_) fun _ => .done trivial
  extract_lets entries o
  have hfields : ∀ entry ∈ entries, Within e entry ∧ image e entry = entry := by
    intro entry hentry
    obtain ⟨⟨name, text⟩, -, hname⟩ := List.mem_filterMap.mp hentry
    obtain ⟨n, -, rfl⟩ := Option.map_eq_some_iff.mp hname
    exact ⟨⟨trivial, within_ofText? text⟩, congrArg (n, ·) (image_ofText? text)⟩
  refine (tracks_allocate ?_ ?_).bind fun id hid => .done hid
  · exact within_insertAll (fun entry hentry => (hfields entry hentry).1) Object.within_default
  · refine Eq.trans ?_ (image_insertAll _ _)
    have hempty : image e ({} : Object) = {} := Object.image_default
    rw [hempty, image_list, List.map_congr_left fun entry hentry => (hfields entry hentry).2, List.map_id']

theorem tracks_matchArray (m : Regex.Match) (input : String) :
    (matchArray m input).Tracks e (matchArray m input) := by
  have hgroups : Within e (m.groups.map Value.ofText?) := by
    intro v hv
    obtain ⟨text, -, rfl⟩ := Array.mem_map.mp hv
    exact within_ofText? text
  have himage : image e (m.groups.map Value.ofText?) = m.groups.map Value.ofText? := by
    simp [image_array, image_ofText?, Function.comp_def]
  refine (tracks_allocate ?_ ?_).bind fun id hid => (tracks_groupsOf m).bind fun groups hg => ?_
  · exact { Object.within_default with prototype := within_intrinsic _, elements := within_some.mpr hgroups }
  · simp [himage]
  · refine (tracks_modifyObject hid (.setUp ?_ fun _ => rfl) fun o ho => ⟨?_, ?_⟩).bind fun _ _ => .done hid
    · exact .andThen (.andThen (.insert "index" _) (.insert "input" _)) (.insert "groups" _)
    · have hindex : Within e (Value.ofNat m.start) := trivial
      have hinput : Within e (Value.string input) := trivial
      exact Object.within_insertValue (Object.within_insertValue (Object.within_insertValue ho _ hindex) _ hinput) _ hg
    · rw [← Object.insertValue_image, ← Object.insertValue_image, ← Object.insertValue_image]
      rfl

end Eval

end GuestScript
