import GuestScript.Proofs.Lowered
import GuestScript.Proofs.Mirror.Builtin.All
import GuestScript.Proofs.Mirror.Code

/-!
# Calls on mirrors

Whatever an action asks for is done in the same way on both sides (`Eval.tracks_serve`). Text is compiled on each side
anew, to the same program; that the program is firm is what `Proofs.Lowered` shows.
-/

namespace GuestScript

variable {scope : ScopeId} {args : Array Value} {receiver : Value} {e : Embedding}

instance : Carried Program where
  Within e p := p.Firm e.Sets
  image _ p := p

namespace Eval

variable {α : Type} {P : α → Prop} {g : α → α}

/-! ## 1. Functions of scripts -/

theorem follows_inCall {x x' : Eval α} (hx : x.Follows e P g x') (name : String) :
    (inCall name x).Follows e P g (inCall name x') :=
  .nest hx (follows_throwFault _ _)

theorem tracks_bindParameters {args : Array Value} (hargs : Within e args) :
    ∀ {l : List (Pattern × Bool)}, Pattern.FirmParameters e.Sets l → ∀ i : Nat,
      (bindParameters args l i).TracksAs e true (bindParameters (image e args) l i)
  | [], _, _ => .done trivial
  | (pattern, takesRest) :: rest, h, i => by
    have hlast (v : Value) (hv : Within e v) : (do
          pattern.bind v
          bindParameters args rest (i + 1)).TracksAs e true
        (do
          pattern.bind (image e v)
          bindParameters (image e args) rest (i + 1)) :=
      (pattern.binds_bind (fun _ _ => .inl rfl) h.1 v hv).bind fun _ _ => tracks_bindParameters hargs h.2 (i + 1)
    unfold bindParameters
    cases takesRest with
    | true =>
      have hrest := tracks_newArray (within_extract hargs i args.size)
      rw [← extract_image] at hrest
      rw [size_image]
      exact hrest.bind hlast
    | false =>
      rw [argument_image]
      exact (tracks_pure (within_argument hargs i)).bind hlast

theorem tracks_runBody {function : ObjectId} (hfunction : e.Open function) {template : Template}
    (htemplate : template.Firm e.Sets) (hscope : e.Solid scope) (hargs : Within e args) :
    (runBody function template scope args).TracksAs e true
      (runBody (e.object function) template (e.scope scope) (image e args)) := by
  obtain ⟨name, bindsSelf, parameters, body, hoisted, isArrow, arity, source⟩ := template
  obtain ⟨vars, functions, frame, uses⟩ := hoisted
  obtain ⟨hparameters, hbody, hfunctions⟩ := htemplate
  have hrun : (do
        bindParameters args parameters 0
        instantiate functions scope
        declareVars vars scope
        body.exec).TracksAs e true
      (do
        bindParameters (image e args) parameters 0
        instantiate functions (e.scope scope)
        declareVars vars (e.scope scope)
        body.exec) :=
    (tracks_bindParameters hargs hparameters 0).bind fun _ _ => (tracks_instantiate hfunctions hscope).bind fun _ _ =>
      (tracks_declareVars vars hscope).bind fun _ _ => (body.tracks_exec hbody).as
  have hargsThen : (if !isArrow && uses then (do
          let list ← newArguments args
          setVariable scope "arguments" (.object list)
          bindParameters args parameters 0
          instantiate functions scope
          declareVars vars scope
          body.exec) else (do
          bindParameters args parameters 0
          instantiate functions scope
          declareVars vars scope
          body.exec)).TracksAs e true
      (if !isArrow && uses then (do
          let list ← newArguments (image e args)
          setVariable (e.scope scope) "arguments" (.object list)
          bindParameters (image e args) parameters 0
          instantiate functions (e.scope scope)
          declareVars vars (e.scope scope)
          body.exec) else (do
          bindParameters (image e args) parameters 0
          instantiate functions (e.scope scope)
          declareVars vars (e.scope scope)
          body.exec)) :=
    Follows.ite Iff.rfl (fun _ => (tracks_newArguments hargs).bind fun _ hlist =>
      (tracks_setVariable hscope "arguments" (Value.within_object hlist)).bind fun _ _ => hrun) fun _ => hrun
  exact Follows.ite Iff.rfl
    (fun _ => (tracks_setVariable hscope name (Value.within_object hfunction)).bind fun _ _ => hargsThen)
    fun _ => hargsThen

theorem tracks_callClosure {function : ObjectId} (hfunction : e.Open function) {template : Template}
    (htemplate : template.Firm e.Sets) (hscope : e.Scoped scope) {captured : Option Value}
    (hcaptured : Within e captured) (hreceiver : Within e receiver) (hargs : Within e args) :
    (callClosure function template scope captured receiver args).Tracks e
      (callClosure (e.object function) template (e.scope scope) (image e captured) (image e receiver)
        (image e args)) := by
  have hplain : (read fun m => m.rules.plainReceiver).Tracks e (read fun m => m.rules.plainReceiver) :=
    .read fun _ _ h => ⟨h.within_rules.2, congrArg Rules.plainReceiver h.rules⟩
  refine (follows_inCall ((follows_newFrame rfl hscope _).bind fun inner hinner => hplain.bind fun plain hplain => ?_)
    template.name).bind (P := Within e) (g := image e) fun completion hcompletion => ?_
  · have hdefault : Within e (if receiver.isUndefined then plain else receiver) := by
      split
      · exact hplain
      · exact hreceiver
    have hthis := within_getD hcaptured hdefault
    have himage : (if (image e receiver).isUndefined then image e plain else image e receiver) =
        image e (if receiver.isUndefined then plain else receiver) := by
      rw [Value.isUndefined_image]
      split <;> rfl
    rw [himage, getD_image]
    exact follows_inSolidFrame hinner hthis (follows_withNewTarget within_none
      (tracks_runBody hfunction htemplate hinner hargs))
  · cases completion with
    | exit v => exact .done hcompletion
    | _ => exact .done trivial

/-! ## 2. Classes -/

theorem tracks_instanceOfConstructor {constructor : ObjectId} (h : e.Open constructor) :
    (instanceOfConstructor constructor).Tracks e (instanceOfConstructor (e.object constructor)) := by
  refine (tracks_object (.inl h)).bind fun o ho => ?_
  have hvalue := Object.within_ownValue? ho "prototype"
  rw [Object.ownValue?_image]
  cases hfound : o.ownValue? "prototype" with
  | none => exact tracks_newPlain
  | some v =>
    rw [hfound] at hvalue
    cases v with
    | object prototype =>
      have hprototype : e.Open prototype := within_some.mp hvalue
      exact tracks_newObject (within_some.mpr hprototype)
    | _ => exact tracks_newPlain

theorem tracks_initFields {scope : ScopeId} (hscope : e.Scoped scope) {id : ObjectId} (hid : e.Open id) :
    ∀ {l : List ClassField}, Within e l →
      (initFields scope id l).Tracks e (initFields (e.scope scope) (e.object id) (image e l))
  | [], _ => .done trivial
  | field :: rest, hl => by
    obtain ⟨hfield, hrest⟩ := within_cons.mp hl
    have hlast (v : Value) (hv : Within e v) : (do
          discard <| defineOwn id field.key (.ordinary v)
          initFields scope id rest).Tracks e
        (do
          discard <| defineOwn (e.object id) (image e field.key) (.ordinary (image e v))
          initFields (e.scope scope) (e.object id) (image e rest)) :=
      (tracks_defineOwn hid field.key (within_ordinary hv)).discard.bind fun _ _ =>
        tracks_initFields hscope hid hrest
    obtain ⟨key, init, isArrow⟩ := field
    cases init with
    | none => exact (tracks_pure Value.within_undefined).bind hlast
    | some code =>
      exact (follows_inFrame hscope (Value.within_object hid) (tracks_valueOf (code.tracks_exec hfield))).bind hlast

theorem image_orderedFields (fields : List ClassField) :
    (image e fields).filter (·.isArrow) ++ (image e fields).filter (fun f => !f.isArrow) =
      image e (fields.filter (·.isArrow) ++ fields.filter fun f => !f.isArrow) := by
  simp only [image_list, List.filter_map, List.map_append]
  rfl

theorem within_orderedFields {fields : List ClassField} (h : Within e fields) :
    Within e (fields.filter (·.isArrow) ++ fields.filter fun f => !f.isArrow) :=
  within_append (fun f hf => h f (List.mem_filter.mp hf).1) fun f hf => h f (List.mem_filter.mp hf).1

/-- What a constructor returns takes the place of the instance if it is an object. -/
theorem within_instead {result this : Value} (hresult : Within e result) (hthis : Within e this) :
    Within e (if result.isObject then result else this) := by
  split
  · exact hresult
  · exact hthis

theorem image_instead (result this : Value) :
    (if (image e result).isObject then image e result else image e this) =
      image e (if result.isObject then result else this) := by
  rw [Value.isObject_image]
  split <;> rfl

theorem tracks_instead {result this : Value} (hresult : Within e result) (hthis : Within e this) :
    (pure (if result.isObject then result else this) : Eval Value).Tracks e
      (pure (if (image e result).isObject then image e result else image e this)) :=
  follows_pure (within_instead hresult hthis) (image_instead result this)

/-- What is left to do of an instance after the class it derives from: its fields and the constructor of its own. -/
theorem tracks_initOwn {constructor : Option ObjectId} (hconstructor : Within e constructor) {fields : List ClassField}
    (hfields : Within e fields) (hscope : e.Scoped scope) {id : ObjectId} (hid : e.Open id) (hargs : Within e args) :
    (do
      initFields scope id (fields.filter (·.isArrow) ++ fields.filter fun f => !f.isArrow)
      match constructor with
      | some constructor =>
        match (← object constructor).callable with
        | some (.closure template scope captured) =>
          let result ← callClosure constructor template scope captured (.object id) args
          pure (if result.isObject then result else .object id)
        | _ => pure (.object id)
      | none => pure (.object id) : Eval Value).Tracks e
    (do
      initFields (e.scope scope) (e.object id)
        ((image e fields).filter (·.isArrow) ++ (image e fields).filter fun f => !f.isArrow)
      match image e constructor with
      | some constructor =>
        match (← object constructor).callable with
        | some (.closure template scope captured) =>
          let result ← callClosure constructor template scope captured (.object (e.object id)) (image e args)
          pure (if result.isObject then result else .object (e.object id))
        | _ => pure (.object (e.object id))
      | none => pure (.object (e.object id))) := by
  have hthis := Value.within_object hid
  rw [image_orderedFields]
  refine (tracks_initFields hscope hid (within_orderedFields hfields)).bind fun _ _ => ?_
  cases constructor with
  | none => exact .done hthis
  | some constructor =>
    refine (tracks_object (.inl (within_some.mp hconstructor))).bind fun o ho => ?_
    have hcallable := ho.callable
    rw [Object.callable_image]
    cases hc : o.callable with
    | none => exact .done hthis
    | some c =>
      rw [hc] at hcallable
      cases c with
      | closure template scope captured =>
        obtain ⟨htemplate, hscope, hcaptured⟩ := within_some.mp hcallable
        exact (tracks_callClosure (within_some.mp hconstructor) htemplate hscope hcaptured hthis hargs).bind
          fun result hresult => tracks_instead hresult hthis
      | _ => exact .done hthis

theorem tracks_initInstance {data : ClassFunction} (hdata : Within e data) {id : ObjectId} (hid : e.Open id)
    (hargs : Within e args) :
    (initInstance data id args).Tracks e (initInstance (image e data) (e.object id) (image e args)) := by
  obtain ⟨name, constructor, arity, parent, fields, scope, source⟩ := data
  obtain ⟨hconstructor, hparent, hfields, hscope⟩ := hdata
  have hthis := Value.within_object hid
  have hlast := tracks_initOwn hconstructor hfields hscope hid hargs
  have hnone : (image e constructor).isNone = true ↔ constructor.isNone = true := by rw [isNone_image]
  refine Follows.ite hnone (fun _ => ?_) fun _ => hlast
  cases parent with
  | none => exact hlast
  | some parent =>
    exact (tracks_initParent (within_some.mp hparent) hthis hargs).discard.bind fun _ _ => hlast

/-! ## 3. Text -/

theorem tracks_compileTree (tree : Node) (source : Option String) :
    (compileTree tree source).Tracks e (compileTree tree source) := by
  unfold compileTree
  cases h : Program.ofTree tree source with
  | ok program => exact .done (Program.firm_ofTree e.sets h)
  | error error =>
    cases error with
    | interrupt i => exact .stop (s := .interrupt i) trivial
    | guest kind message => exact follows_throwFault kind message

theorem tracks_compileText (text : String) : (compileText text).Tracks e (compileText text) := by
  have hrules : (read State.rules).Tracks e (read State.rules) := .read fun _ _ h => ⟨h.within_rules, h.rules⟩
  refine hrules.bind fun rules _ => ?_
  obtain ⟨version, depth, root, plain, parser⟩ := rules
  cases parser with
  | none => exact .stop (s := .interrupt _) trivial
  | some parser =>
    dsimp only [image]
    split
    · exact follows_throwFault _ _
    · exact tracks_compileTree _ _

/-- The value of a program in a scope: what it returned, or the value of its last expression. -/
theorem tracks_programValue {body : Code} (hbody : body.Firm e.Sets) {inner : ScopeId} (hinner : e.Scoped inner) :
    (do
      match ← inScope inner body.exec with
      | .exit v => pure v
      | _ => read fun m => m.result).Tracks e
    (do
      match ← inScope (e.scope inner) body.exec with
      | .exit v => pure v
      | _ => read fun m => m.result) := by
  refine (follows_inScope hinner (body.tracks_exec hbody)).bind fun completion hcompletion => ?_
  cases completion with
  | exit v => exact .done hcompletion
  | _ => exact .read fun _ _ h => ⟨h.within_registers.2.2.1, h.result⟩

theorem tracks_execute {program : Program} (hprogram : program.Firm e.Sets) :
    (execute program).Tracks e (execute program) := by
  have htarget : (read State.variableScope).Follows e e.Solid e.scope (read State.variableScope) :=
    .read fun _ _ h => ⟨h.solid_variableScope, h.variableScope⟩
  obtain ⟨⟨vars, functions, frame, uses⟩, body⟩ := program
  refine htarget.bind fun target htarget => (tracks_declareVars vars htarget).bind fun _ _ => ?_
  refine (tracks_instantiate hprogram.hoisted htarget).bind fun _ _ => tracks_currentScope.bind fun scope hscope => ?_
  have hlast (inner : ScopeId) (hinner : e.Scoped inner) := tracks_programValue hprogram.body hinner
  exact Follows.ite Iff.rfl (fun _ => (tracks_pure hscope).bind hlast) fun _ =>
    (follows_newFrame rfl hscope frame).bind fun inner hinner => hlast inner hinner.1

theorem tracks_evalCode {code : Option Value} (hcode : Within e code) (hscope : e.Scoped scope)
    (hreceiver : Within e receiver) :
    (evalCode code scope receiver).Tracks e (evalCode (image e code) (e.scope scope) (image e receiver)) := by
  cases code with
  | none => exact .done trivial
  | some v =>
    cases v with
    | string text =>
      refine Follows.ite Iff.rfl (fun _ => .done trivial) fun _ => ?_
      refine (tracks_compileText text).bind fun program hprogram => ?_
      have hframe : Within e (Frame.program scope receiver) := ⟨hscope, hreceiver⟩
      exact .within hframe (fun h : false = true => nomatch h) (tracks_execute hprogram)
    | _ => exact .done (within_some.mp hcode)

theorem tracks_evalGlobally {code : Option Value} (hcode : Within e code) :
    (evalGlobally code).Tracks e (evalGlobally (image e code)) := by
  have hscope : (read State.globalScope).Tracks e (read State.globalScope) :=
    .read fun _ _ h => ⟨h.within_globalScope, h.globalScope⟩
  have hbindings : (read State.bindings).Tracks e (read State.bindings) :=
    .read fun _ _ h => ⟨h.within_bindings, h.bindings⟩
  exact hscope.bind fun _ hscope => hbindings.bind fun _ hbindings =>
    tracks_evalCode hcode hscope (Value.within_object hbindings)

theorem image_texts (texts : List String) : image e texts = texts :=
  List.map_id' texts

theorem tracks_functionFromTexts (hargs : Within e args) :
    (functionFromTexts args).Tracks e (functionFromTexts (image e args)) := by
  have htexts : (args.toList.mapM toText).Tracks e ((image e args.toList).mapM toText) :=
    tracks_mapM (within_toList hargs) fun _ hv => tracks_toText hv
  unfold functionFromTexts
  rw [toList_image]
  refine htexts.bind fun texts _ => ?_
  rw [image_texts]
  exact tracks_evalGlobally (within_some.mpr (Value.within_string _))

/-! ## 4. Requests -/

theorem tracks_callFunction {function : Value} (hfunction : Within e function) (hreceiver : Within e receiver)
    (hargs : Within e args) :
    (callFunction function receiver args).Tracks e
      (callFunction (image e function) (image e receiver) (image e args)) := by
  have hrefuse : (do throwTypeError ((← display function) ++ " is not a function") : Eval Value).Tracks e
      (do throwTypeError ((← display (image e function)) ++ " is not a function")) :=
    (tracks_display hfunction).bind fun _ _ => follows_throwTypeError _
  refine (tracks_callable? hfunction).bind fun found hfound => ?_
  cases function with
  | object id =>
    cases found with
    | none => exact hrefuse
    | some c =>
      have hc := within_some.mp hfound
      refine follows_withNewTarget within_none ?_
      cases c with
      | builtin b => exact b.tracks_run hreceiver hargs
      | closure template scope captured =>
        exact tracks_callClosure hfunction hc.1 hc.2.1 hc.2.2 hreceiver hargs
      | classFunction data => exact follows_throwTypeError _
      | bound target boundReceiver boundArgs name arity isConstructor =>
        exact tracks_call (Value.within_object hc.1) hc.2.1 (within_appendArray hc.2.2 hargs)
          (append_image boundArgs args)
      | evalText =>
        have hcode := tracks_evalGlobally (within_getElem? hargs 0)
        rw [← getElem?_image] at hcode
        exact hcode
      | makeFunction => exact tracks_functionFromTexts hargs
  | _ => cases found <;> exact hrefuse

theorem tracks_constructFunction {function : Value} (hfunction : Within e function) (hargs : Within e args) :
    (constructFunction function args).Tracks e (constructFunction (image e function) (image e args)) := by
  have hrefuse : (do throwTypeError ((← display function) ++ " is not a constructor") : Eval Value).Tracks e
      (do throwTypeError ((← display (image e function)) ++ " is not a constructor")) :=
    (tracks_display hfunction).bind fun _ _ => follows_throwTypeError _
  refine (tracks_callable? hfunction).bind fun found hfound => ?_
  have hconstructor : Within e (found.filter Callable.isConstructor) := fun c hc =>
    hfound c (Option.mem_filter_iff.mp hc).1
  have hfilter : (image e found).filter Callable.isConstructor = image e (found.filter Callable.isConstructor) := by
    cases found with
    | none => rfl
    | some c =>
      simp only [image_some, Option.filter_some, Callable.isConstructor_image]
      split <;> rfl
  rw [hfilter]
  generalize found.filter Callable.isConstructor = constructor at hconstructor ⊢
  cases function with
  | object id =>
    cases constructor with
    | none => exact hrefuse
    | some c =>
      have hc := within_some.mp hconstructor
      cases c with
      | bound target boundReceiver boundArgs name arity isConstructor =>
        have hconstruct := tracks_construct (Value.within_object hc.1) (within_appendArray hc.2.2 hargs)
        rw [← append_image] at hconstruct
        exact hconstruct
      | evalText | makeFunction => exact tracks_functionFromTexts hargs
      | classFunction data =>
        exact (tracks_instanceOfConstructor hfunction).bind fun instanceId hinstance =>
          follows_inCall (tracks_initInstance hc hinstance hargs) data.name
      | closure template scope captured =>
        refine (tracks_instanceOfConstructor hfunction).bind fun instanceId hinstance => ?_
        have hthis := Value.within_object hinstance
        exact (tracks_callClosure hfunction hc.1 hc.2.1 hc.2.2 hthis hargs).bind fun result hresult =>
          tracks_instead hresult hthis
      | builtin b =>
        refine (tracks_instanceOfConstructor hfunction).bind fun instanceId hinstance => ?_
        have hthis := Value.within_object hinstance
        exact (follows_withNewTarget (within_some.mpr hfunction) (b.tracks_run hthis hargs)).bind fun result hresult =>
          tracks_instead hresult hthis
  | _ => cases constructor <;> exact hrefuse

theorem tracks_initFromParent {parent : ObjectId} (hparent : e.Open parent) (hreceiver : Within e receiver)
    (hargs : Within e args) :
    (initFromParent parent receiver args).Tracks e
      (initFromParent (e.object parent) (image e receiver) (image e args)) := by
  have hrefuse (name : String) : (do raise .isNotConstructor name (← read State.lastPosition) : Eval Value).Tracks e
      (do raise .isNotConstructor name (← read State.lastPosition)) := by
    refine tracks_lastPosition.bind fun position _ => ?_
    rw [image_position]
    exact follows_raise _ _ _
  refine (tracks_object (.inl hparent)).bind fun o ho => ?_
  have hcallable := ho.callable
  rw [Object.callable_image]
  cases hfound : o.callable with
  | none => exact hrefuse _
  | some c =>
    rw [hfound] at hcallable
    have hc := within_some.mp hcallable
    cases c with
    | classFunction data =>
      cases receiver with
      | object id => exact follows_inCall (tracks_initInstance hc hreceiver hargs) data.name
      | _ => exact .done trivial
    | closure template scope captured =>
      exact tracks_callClosure hparent hc.1 hc.2.1 hc.2.2 hreceiver hargs
    | bound target boundReceiver boundArgs name arity isConstructor =>
      have hinit := tracks_initParent hc.1 hreceiver (within_appendArray hc.2.2 hargs)
      rw [← append_image] at hinit
      exact hinit
    | builtin b =>
      exact Follows.ite Iff.rfl
        (fun _ => follows_withNewTarget (within_some.mpr hparent) (b.tracks_run hreceiver hargs)) fun _ => hrefuse _
    | evalText | makeFunction => exact hrefuse _

/-- **Every request is done in the same way on mirrors.** -/
theorem tracks_serve {request : Request} (h : Within e request) :
    (serve request).Tracks e (serve (image e request)) := by
  cases request with
  | call function receiver args => exact tracks_callFunction h.1 h.2.1 h.2.2
  | construct function args => exact tracks_constructFunction h.1 h.2
  | initParent parent receiver args => exact tracks_initFromParent h.1 h.2.1 h.2.2
  | evalText code scope receiver => exact tracks_evalCode h.1 h.2.1 h.2.2

end Eval

end GuestScript
