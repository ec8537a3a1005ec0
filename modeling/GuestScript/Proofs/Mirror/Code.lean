import GuestScript.Proofs.Mirror.Expression

/-!
# Code on mirrors

Code holds no addresses, so its action is the same on both sides, and does the same: every construct does, if its parts
do (`Code.tracks_exec`). The code has to be firm, since a round of a loop that counts no step would end the run at a
place that is not for scripts to see, and a name that is set in a clear scope would not be found on the other side.
-/

namespace GuestScript

variable {e : Embedding}

namespace Eval

/-! ## 1. Classes -/

instance : Carried ClassMembers where
  Within e members := Within e members.methods ∧ Within e members.fields
  image e members :=
    { methods := image e members.methods, fields := image e members.fields,
      staticKeys := image e members.staticKeys }

theorem tracks_classParent {parent : Option (Eval Completion)} (hparent : ∀ x ∈ parent, x.Tracks e x) :
    (classParent parent).Tracks e (classParent parent) := by
  have hnone : (pure (none, none) : Eval (Option ObjectId × Option ObjectId)).Tracks e (pure (none, none)) :=
    .done ⟨within_none, within_none⟩
  cases parent with
  | none =>
    refine follows_pure ⟨within_none, within_intrinsic _⟩ ?_
    rw [image_pair, image_some, image_objectId, object_intrinsic]
    rfl
  | some x =>
    refine (tracks_valueOf (hparent x rfl)).bind fun v hv => ?_
    cases v with
    | null => exact hnone
    | object id =>
      refine (tracks_isConstructor hv).bind fun _ _ => Follows.ite Iff.rfl (fun _ => ?_) fun _ => ?_
      · refine (tracks_object (.inl hv)).bind fun o ho => ?_
        have hprototype := Object.within_ownValue? ho "prototype"
        have hid : Within e (some id) := within_some.mpr hv
        have hplain : (pure (some id, some Intrinsic.objectPrototype.id)
              : Eval (Option ObjectId × Option ObjectId)).Tracks e
            (pure (some (e.object id), some Intrinsic.objectPrototype.id)) := by
          refine follows_pure ⟨hid, within_intrinsic _⟩ ?_
          rw [image_pair, image_some, image_some, image_objectId, image_objectId, object_intrinsic]
        rw [Object.ownValue?_image]
        generalize o.ownValue? "prototype" = own at hprototype ⊢
        cases own with
        | none => exact hplain
        | some w =>
          have hw : Within e w := within_some.mp hprototype
          cases w with
          | object prototype => exact .done ⟨hid, within_some.mpr hw⟩
          | null => exact .done ⟨hid, within_none⟩
          | _ => exact hplain
      · exact (tracks_display hv).bind fun _ _ => follows_throwTypeError _
    | _ =>
      refine (tracks_isConstructor hv).bind fun _ _ => Follows.ite Iff.rfl (fun _ => hnone) fun _ => ?_
      exact (tracks_display hv).bind fun _ _ => follows_throwTypeError _

/-- The scopes that the members of a class see, which are not clear if the class is bound to a name in them. -/
def ClassScope (e : Embedding) : Option String → ScopeId → Prop
  | some _ => e.Solid
  | none => e.Scoped

theorem ClassScope.scoped {binding : Option String} {scope : ScopeId} (h : ClassScope e binding scope) :
    e.Scoped scope := by
  cases binding with
  | some _ => exact h.1
  | none => exact h

theorem follows_classScope (binding : Option String) :
    (classScope binding).Follows e (ClassScope e binding) e.scope (classScope binding) := by
  refine tracks_currentScope.bind fun outer houter => ?_
  cases binding with
  | none => exact .done houter
  | some name => exact follows_newFrame rfl houter _

theorem tracks_classConstructor {template : Option Template} (htemplate : Template.Firm? e.Sets template)
    {parent : Option ObjectId} (hparent : Within e parent) {scope : ScopeId} (hscope : e.Scoped scope) :
    (classConstructor template parent scope).Tracks e
      (classConstructor template (image e parent) (e.scope scope)) := by
  have hmake {t : Template} (ht : t.Firm e.Sets) {scope : ScopeId} (hscope : e.Scoped scope) :
      (do return some (← newFunction (.closure t scope none)) : Eval (Option ObjectId)).Tracks e
        (do return some (← newFunction (.closure t (e.scope scope) none))) := by
    have hclosure : Within e (Callable.closure t scope none) := ⟨ht, hscope, within_none⟩
    exact (tracks_newFunction hclosure).bind fun id hid => .done (within_some.mpr hid)
  cases template with
  | none => exact .done within_none
  | some t =>
    cases parent with
    | none => exact hmake htemplate hscope
    | some p =>
      refine (follows_newFrame rfl hscope _).bind fun prelude hprelude => ?_
      have hopen : e.Open p := within_some.mp hparent
      have hsuper := Value.within_object hopen
      exact (tracks_initializeIn hprelude "super" hsuper).bind fun _ _ => hmake htemplate hprelude.1

/-- What a member of a class is put together from. -/
def TracksMember (e : Embedding) : MemberAction → Prop
  | .method key template _ => key.Tracks e key ∧ template.Firm e.Sets
  | .accessor _ => True
  | .field key init _ => key.Tracks e key ∧ Code.Firm? e.Sets init
  | .staticField key init => key.Tracks e key ∧ ∀ x ∈ init, x.Tracks e x

theorem tracks_classMembers {scope : ScopeId} (hscope : e.Scoped scope) (position : Option Position)
    {l : List MemberAction} (h : ∀ member ∈ l, TracksMember e member) {acc : ClassMembers} (hacc : Within e acc) :
    (classMembers scope position l acc).Tracks e (classMembers (e.scope scope) position l (image e acc)) := by
  induction l generalizing acc with
  | nil => exact .done hacc
  | cons member l ih =>
    have hrest : ∀ m ∈ l, TracksMember e m := fun m hm => h m (List.mem_cons_of_mem member hm)
    have hmember := h member List.mem_cons_self
    cases member with
    | accessor isGetter => exact follows_raise _ _ _
    | method key template isStatic =>
      refine hmember.1.bind fun key _ => ?_
      have hclosure : Within e (Callable.closure template scope none) := ⟨hmember.2, hscope, within_none⟩
      refine (tracks_newFunction hclosure).bind fun id hid => ?_
      have hmethods : Within e (acc.methods ++ [(key, id, isStatic)]) :=
        within_append hacc.1 (within_cons.mpr ⟨⟨trivial, hid, trivial⟩, within_nil⟩)
      have hnext : Within e ({ acc with methods := acc.methods ++ [(key, id, isStatic)] } : ClassMembers) :=
        ⟨hmethods, hacc.2⟩
      have htracks := ih hrest hnext
      have himage : image e ({ acc with methods := acc.methods ++ [(key, id, isStatic)] } : ClassMembers) =
          { image e acc with methods := (image e acc).methods ++ [(image e key, e.object id, isStatic)] } :=
        congrArg (fun methods => { image e acc with methods := methods }) List.map_append
      rwa [himage] at htracks
    | field key init isArrow =>
      refine hmember.1.bind fun key _ => ?_
      have hfields : Within e (acc.fields ++ [⟨key, init, isArrow⟩]) :=
        within_append hacc.2 (within_cons.mpr ⟨hmember.2, within_nil⟩)
      have hnext : Within e ({ acc with fields := acc.fields ++ [⟨key, init, isArrow⟩] } : ClassMembers) :=
        ⟨hacc.1, hfields⟩
      have htracks := ih hrest hnext
      have himage : image e ({ acc with fields := acc.fields ++ [⟨key, init, isArrow⟩] } : ClassMembers) =
          { image e acc with fields := (image e acc).fields ++ [⟨image e key, init, isArrow⟩] } :=
        congrArg (fun fields => { image e acc with fields := fields }) List.map_append
      rwa [himage] at htracks
    | staticField key init =>
      refine hmember.1.bind fun key _ => ?_
      have hnext : Within e ({ acc with staticKeys := acc.staticKeys ++ [key] } : ClassMembers) := hacc
      have htracks := ih hrest hnext
      have himage : image e ({ acc with staticKeys := acc.staticKeys ++ [key] } : ClassMembers) =
          { image e acc with staticKeys := (image e acc).staticKeys ++ [image e key] } :=
        congrArg (fun keys => { image e acc with staticKeys := keys }) List.map_append
      rwa [himage] at htracks

theorem tracks_staticFields {scope : ScopeId} (hscope : e.Scoped scope) {id : ObjectId} (hid : e.Open id)
    {l : List (Key × Option (Eval Completion))} (h : ∀ field ∈ l, ∀ x ∈ field.2, x.Tracks e x) :
    (staticFields scope id l).Tracks e
      (staticFields (e.scope scope) (e.object id)
        (l.map fun field : Key × Option (Eval Completion) => (image e field.1, field.2))) := by
  induction l with
  | nil => exact tracks_unit
  | cons field l ih =>
    have hrest := ih fun f hf => h f (List.mem_cons_of_mem field hf)
    have hinit := h field List.mem_cons_self
    obtain ⟨key, init⟩ := field
    have hdefine {v : Value} (hv : Within e v) : (do
          discard <| defineOwn id key (.ordinary v)
          staticFields scope id l).Tracks e
        (do
          discard <| defineOwn (e.object id) (image e key) (.ordinary (image e v))
          staticFields (e.scope scope) (e.object id)
            (l.map fun field : Key × Option (Eval Completion) => (image e field.1, field.2))) :=
      (tracks_defineOwn hid key (within_ordinary hv)).discard.bind fun _ _ => hrest
    cases init with
    | none => exact (tracks_pure Value.within_undefined).bind fun v hv => hdefine hv
    | some x =>
      have hvalue := follows_inFrame hscope (Value.within_object hid) (tracks_valueOf (hinit x rfl))
      exact hvalue.bind fun v hv => hdefine hv

/-- What a class is put together from. -/
structure TracksClass (e : Embedding) (c : ClassAction) : Prop where
  parent : ∀ x ∈ c.parent, x.Tracks e x
  constructor : Template.Firm? e.Sets c.constructor
  members : ∀ member ∈ c.members, TracksMember e member

theorem tracks_staticInit {l : List MemberAction} (h : ∀ member ∈ l, TracksMember e member) :
    ∀ init ∈ l.filterMap MemberAction.staticInit?, ∀ x ∈ init, x.Tracks e x := by
  intro init hinit
  obtain ⟨member, hmember, heq⟩ := List.mem_filterMap.mp hinit
  have htracks := h member hmember
  cases member with
  | staticField key init' =>
    cases heq
    exact htracks.2
  | _ => cases heq

theorem image_getD_functionPrototype (parent : Option ObjectId) :
    (image e parent).getD Intrinsic.functionPrototype.id = e.object (parent.getD Intrinsic.functionPrototype.id) := by
  cases parent with
  | none => exact (object_intrinsic Intrinsic.functionPrototype).symm
  | some id => rfl

theorem zip_image (keys : List Key) (inits : List (Option (Eval Completion))) :
    (image e keys).zip inits = (keys.zip inits).map fun field => (image e field.1, field.2) :=
  List.zip_map_left

/-- The methods of a class are defined on its function and on the prototype of its instances. -/
theorem tracks_defineMethods {id prototype : ObjectId} (hid : e.Open id) (hprototype : e.Open prototype)
    {methods : List (Key × ObjectId × Bool)} (hmethods : Within e methods) :
    (methods.forM fun (key, method, isStatic) =>
      discard <| defineOwn (if isStatic then id else prototype) key (.data (.object method) true false true)).Tracks e
    ((image e methods).forM fun (key, method, isStatic) =>
      discard <| defineOwn (if isStatic then e.object id else e.object prototype) key
        (.data (.object method) true false true)) := by
  refine tracks_forM hmethods fun entry hentry => ?_
  obtain ⟨key, method, isStatic⟩ := entry
  have hmethod : Within e (Descriptor.data (.object method) true false true) :=
    ⟨within_some.mpr (Value.within_object hentry.2.1), within_none, within_none⟩
  cases isStatic with
  | true => exact (tracks_defineOwn hid key hmethod).discard
  | false => exact (tracks_defineOwn hprototype key hmethod).discard

theorem tracks_classObject {data : ClassFunction} (hdata : Within e (Callable.classFunction data)) {prototype : ObjectId}
    (hprototype : e.Open prototype) :
    (allocate (classObject data prototype)).Tracks e
      (allocate (classObject (image e data) (e.object prototype))) := by
  have hparent : e.Open (data.parent.getD Intrinsic.functionPrototype.id) :=
    within_getD hdata.2.1 (e.intrinsic_open Intrinsic.functionPrototype)
  refine tracks_allocate (Object.within_insert (within_functionObject hdata hparent) "prototype" hprototype) ?_
  have hfunction := image_functionObject (e := e) (.classFunction data) (data.parent.getD Intrinsic.functionPrototype.id)
  unfold classObject
  rw [← Object.insert_image, ← hfunction, ← image_getD_functionPrototype]
  rfl

theorem tracks_defineClass {c : ClassAction} (hc : TracksClass e c) :
    (defineClass c).Tracks e (defineClass c) := by
  refine (tracks_classParent hc.parent).bind fun parents hparents => ?_
  obtain ⟨parent, prototypeParent⟩ := parents
  obtain ⟨hparent, hprototypeParent⟩ := hparents
  refine (tracks_newObject hprototypeParent).bind fun prototype hprototype => ?_
  refine (follows_classScope c.binding).bind fun scope hbinding => ?_
  have hscope := hbinding.scoped
  refine (tracks_classConstructor hc.constructor hparent hscope).bind fun constructor hconstructor => ?_
  have hempty : Within e ({} : ClassMembers) := ⟨within_nil, within_nil⟩
  refine (tracks_classMembers hscope c.position hc.members hempty).bind fun members hmembers => ?_
  have hdata : Within e (Callable.classFunction
      { name := c.name
        constructor := constructor
        arity := if constructor.isSome then (c.constructor.map Template.arity).getD 0 else 0
        parent := parent
        fields := members.fields
        scope := scope
        source := c.source }) := ⟨hconstructor, hparent, hmembers.2, hscope⟩
  have hclass := tracks_classObject hdata hprototype
  rw [isSome_image]
  refine hclass.bind fun id hid => ?_
  refine (tracks_insertHidden hprototype "constructor" (Value.within_object hid)).bind fun _ _ => ?_
  refine (tracks_defineMethods hid hprototype hmembers.1).bind fun _ _ => ?_
  have hstatic := tracks_staticFields hscope hid
    (l := members.staticKeys.zip (c.members.filterMap MemberAction.staticInit?)) fun field hfield =>
      tracks_staticInit hc.members field.2 (List.of_mem_zip hfield).2
  rw [← zip_image] at hstatic
  have hlast : (do
        staticFields scope id (members.staticKeys.zip (c.members.filterMap MemberAction.staticInit?))
        return id : Eval ObjectId).Tracks e
      (do
        staticFields (e.scope scope) (e.object id)
          ((image e members.staticKeys).zip (c.members.filterMap MemberAction.staticInit?))
        return e.object id) :=
    hstatic.bind fun _ _ => .done hid
  cases hname : c.binding with
  | none => exact hlast
  | some name =>
    rw [hname] at hbinding
    exact (tracks_initializeIn hbinding name (Value.within_object hid)).bind fun _ _ => hlast

theorem tracks_classDeclaration {c : ClassAction} (hc : TracksClass e c) (position : Option Position) :
    (classDeclaration c position).Tracks e (classDeclaration c position) := by
  refine (tracks_defineClass hc).bind fun id hid => ?_
  have hv := Value.within_object hid
  have hlast : (do
        noteResult (.object id)
        return .value (.object id) : Eval Completion).Tracks e
      (do
        noteResult (.object (e.object id))
        return .value (.object (e.object id))) :=
    (tracks_noteResult hv).bind fun _ _ => .done hv
  cases c.binding with
  | none => exact hlast
  | some name => exact (tracks_initializeName name hv position).bind fun _ _ => hlast

end Eval

/-! ## 2. All code -/

section

open Eval

mutual

/-- Code that counts first does so when it is run. -/
theorem Code.counts_exec : {c : Code} → c.Counts → c.exec.Counts fun _ => True
  | .step _ _, _ => Counts.first (Counts.first counts_charge)
  | .chain _, hc => Counts.first (Link.counts_exec hc)

theorem Link.counts_exec : {link : Link} → link.Counts → link.exec.Counts fun _ => True
  | .value _, hc => Counts.first (Counts.first (Code.counts_exec hc))
  | .step _ _, _ | .member _ _ _ _, _ | .superMember _ _, _ | .superCall _ _, _ | .callName _ _ _ _ _, _
  | .call _ _ _ _ _, _ => Counts.first (Counts.first counts_charge)

end

mutual

/-- **Firm code does the same on mirrors.** -/
theorem Code.tracks_exec : (c : Code) → c.Firm e.Sets → c.exec.Tracks e c.exec
  | .step position code, h => follows_step (code.tracks_exec h) position
  | .sequence statements, h => tracks_sequence (Code.tracks_execAll statements h) trivial
  | .expression code, h => tracks_expressionStatement (code.tracks_exec h)
  | .block frame _ body, h => tracks_block h.1 (body.tracks_exec h.2) frame
  | .empty, _ | .jumpOut _, _ | .jumpOn _, _ | .defaultCase, _ => .done trivial
  | .withObject object body, h => tracks_withObject (object.tracks_exec h.1) (body.tracks_exec h.2)
  | .exit argument, h => tracks_exit (Code.tracks_exec? argument h)
  | .labeled label body, h => tracks_labeled (body.tracks_exec h) label
  | .branch test consequent alternate, h => by
    refine tracks_branch (test.tracks_exec h.1) (consequent.tracks_exec h.2.1) ?_
    have halternate := Code.tracks_exec? alternate h.2.2
    cases hx : Code.exec? alternate with
    | none => exact .done trivial
    | some x => exact halternate x hx
  | .switch discriminant frame _ tests bodies, h =>
    tracks_switch (discriminant.tracks_exec h.1) h.2.1 (Code.tracks_execAll tests h.2.2.1)
      (Code.tracks_execAll bodies h.2.2.2) frame
  | .throw argument, h => (tracks_valueOf (argument.tracks_exec h)).bind fun _ hv => follows_throwValue hv
  | .attempt block handler finalizer, h =>
    tracks_attempt (block.tracks_exec h.1) (Code.tracks_handler? handler h.2.1) (Code.tracks_exec? finalizer h.2.2)
  | .whileLoop labels test body, h =>
    tracks_whileLoop (test.tracks_exec h.1) (body.tracks_exec h.2.1) (Code.counts_exec h.2.2) labels
  | .doLoop labels body test, h =>
    tracks_doLoop (body.tracks_exec h.1) (test.tracks_exec h.2.1) (Code.counts_exec h.2.2) labels
  | .forLoop labels frame init test next body, h =>
    tracks_forLoop (Code.tracks_exec? init h.1) (Code.tracks_exec? test h.2.1) (Code.tracks_exec? next h.2.2.1)
      (body.tracks_exec h.2.2.2.1) (Code.counts_exec h.2.2.2.2) labels frame
  | .forIn labels target frame object body, h =>
    tracks_forIn (object.tracks_exec h.2.1) (target.binds_bind (fun _ => .inr) h.1) (body.tracks_exec h.2.2) labels frame
  | .declare bindings, h => tracks_declare (Code.tracks_bindings bindings h)
  | .classDeclaration template position, h => tracks_classDeclaration (template.tracks_action h) position
  | .identifier name position, _ => (tracks_readName name position).bind fun _ hv => .done hv
  | .constant literal, _ => follows_pure (within_literal literal) (congrArg Completion.value (image_literal literal).symm)
  | .regex pattern flags, _ => (tracks_newRegex pattern flags).bind fun _ hv => .done hv
  | .this, _ => tracks_this
  | .array elements, h => tracks_arrayLiteral (Code.tracks_elements elements h)
  | .object parts, h => tracks_objectLiteral (ObjectPart.adds_addAll parts h)
  | .function _, h => tracks_functionValue h
  | .classValue template, h =>
    (tracks_defineClass (template.tracks_action h)).bind fun _ hid => .done (Value.within_object hid)
  | .unary operator argument position, h =>
    (tracks_valueOf (argument.tracks_exec h)).bind fun _ hv =>
      (tracks_unary operator hv position).bind fun _ hv => .done hv
  | .typeOfName name position, _ =>
    (tracks_readNameOrUndefined name position).bind fun _ hv => (tracks_typeName hv).bind fun _ _ => .done trivial
  | .deleteMember object key, h =>
    (tracks_valueOf (object.tracks_exec h.1)).bind fun _ hv => (key.tracks_eval h.2).bind fun key _ =>
      (tracks_deleteProperty hv key).bind fun _ _ => .done trivial
  | .updateName name delta isPrefix position, _ => tracks_updateName name delta isPrefix position
  | .updateMember object key delta isPrefix position, h =>
    tracks_updateMember (object.tracks_exec h.1) (key.tracks_eval h.2) delta isPrefix position
  | .binary operator left right, h =>
    (tracks_valueOf (left.tracks_exec h.1)).bind fun _ hl => (tracks_valueOf (right.tracks_exec h.2)).bind fun _ hr =>
      (tracks_binary operator hl hr).bind fun _ hv => .done hv
  | .logical operator left right, h => tracks_logical operator (left.tracks_exec h.1) (right.tracks_exec h.2)
  | .conditional test consequent alternate, h =>
    tracks_branch (test.tracks_exec h.1) (consequent.tracks_exec h.2.1) (alternate.tracks_exec h.2.2)
  | .assignName operator name value position, h =>
    tracks_assignNameBy operator name (value.tracks_exec h) position
  | .assignMember operator object key value position, h =>
    tracks_assignMemberBy operator (object.tracks_exec h.1) (key.tracks_eval h.2.1) (value.tracks_exec h.2.2) position
  | .assignPattern pattern value, h => tracks_assignPattern (pattern.binds_bind (fun _ => .inr) h.1) (value.tracks_exec h.2)
  | .construct callee arguments label position, h =>
    tracks_constructValue (callee.tracks_exec h.1) (Code.tracks_arguments arguments h.2) label position
  | .comma expressions, h => tracks_lastValue (Code.tracks_execAll expressions h)
  | .template texts expressions, h =>
    (tracks_templateText (Code.tracks_execAll expressions h) texts "").bind fun _ _ => .done trivial
  | .taggedTemplate tag cooked raw expressions label position, h =>
    tracks_taggedTemplate (tag.tracks_exec h.1) cooked raw (Code.tracks_execAll expressions h.2) label position
  | .chain link, h => tracks_chain (link.tracks_exec h)

theorem Code.tracks_execAll : (l : List Code) → Code.AllFirm e.Sets l → ∀ x ∈ Code.execAll l, x.Tracks e x
  | [], _ => List.forall_mem_nil _
  | c :: rest, h => List.forall_mem_cons.mpr ⟨c.tracks_exec h.1, Code.tracks_execAll rest h.2⟩

theorem Code.tracks_exec? : (c : Option Code) → Code.Firm? e.Sets c → ∀ x ∈ Code.exec? c, x.Tracks e x
  | none, _ => nofun
  | some c, h => by
    rintro x ⟨⟩
    exact c.tracks_exec h

theorem Code.tracks_handler? : (handler : Option (Option Pattern × Code)) → Code.FirmHandler e.Sets handler →
    TracksHandler e (Code.handler? handler)
  | none, _ => nofun
  | some (none, body), h => by
    rintro handler ⟨⟩
    exact ⟨nofun, body.tracks_exec h⟩
  | some (some pattern, body), h => by
    rintro handler ⟨⟩
    refine ⟨?_, body.tracks_exec h.2⟩
    rintro bind ⟨⟩
    exact pattern.binds_bind (fun _ _ => .inl rfl) h.1

theorem Code.tracks_bindings : (l : List (Pattern × Option Code)) → Code.FirmBindings e.Sets l →
    ∀ d ∈ Code.bindings l, Binds e false d.1 ∧ ∀ x ∈ d.2, x.Tracks e x
  | [], _ => List.forall_mem_nil _
  | (pattern, init) :: rest, h =>
    List.forall_mem_cons.mpr
      ⟨⟨pattern.binds_bind (fun _ => .inr) h.1, Code.tracks_exec? init h.2.1⟩, Code.tracks_bindings rest h.2.2⟩

theorem Code.tracks_elements : (l : List (Option (Code × Option String))) → Code.FirmElements e.Sets l →
    ∀ x ∈ Code.elements l, ∀ y ∈ x, y.1.Tracks e y.1
  | [], _ => List.forall_mem_nil _
  | none :: rest, h => List.forall_mem_cons.mpr ⟨nofun, Code.tracks_elements rest h⟩
  | some (c, label) :: rest, h => by
    refine List.forall_mem_cons.mpr ⟨?_, Code.tracks_elements rest h.2⟩
    rintro y ⟨⟩
    exact c.tracks_exec h.1

theorem Code.tracks_arguments : (l : List (Code × Bool)) → Code.FirmArguments e.Sets l →
    ∀ x ∈ Code.arguments l, x.1.Tracks e x.1
  | [], _ => List.forall_mem_nil _
  | (c, _) :: rest, h => List.forall_mem_cons.mpr ⟨c.tracks_exec h.1, Code.tracks_arguments rest h.2⟩

theorem Link.tracks_exec : (link : Link) → link.Firm e.Sets → link.exec.Tracks e link.exec
  | .step position link, h => follows_step (link.tracks_exec h) position
  | .member position object key optional, h =>
    tracks_memberLink (object.tracks_exec h.1) (key.tracks_eval h.2) position optional
  | .superMember position key, h => tracks_superMemberLink (key.tracks_eval h) position
  | .superCall position arguments, h => tracks_superCallLink (Code.tracks_arguments arguments h) position
  | .callName position name arguments optional label, h =>
    tracks_callNameLink (Code.tracks_arguments arguments h) position name optional label
  | .call position callee arguments optional label, h =>
    tracks_callLink (callee.tracks_exec h.1) (Code.tracks_arguments arguments h.2) position optional label
  | .value code, h => (tracks_valueOf (code.tracks_exec h)).bind fun _ hv => tracks_reference Value.within_undefined hv

theorem PropertyName.tracks_eval : (key : PropertyName) → key.Firm e.Sets → key.eval.Tracks e key.eval
  | .fixed _, _ => .done trivial
  | .computed code, h => tracks_computedKey (code.tracks_exec h)

theorem ObjectPart.adds_add : (part : ObjectPart) → part.Firm e.Sets → Adds e part.add
  | .value key value, h => adds_value (key.tracks_eval h.1) (value.tracks_exec h.2)
  | .getter key function, h => adds_getter (key.tracks_eval h.1) (function.tracks_exec h.2)
  | .setter key function, h => adds_setter (key.tracks_eval h.1) (function.tracks_exec h.2)
  | .spread source, h => adds_spread (source.tracks_exec h)
  | .ignored value, h => fun _ _ => (value.tracks_exec h).discard

theorem ObjectPart.adds_addAll : (parts : List ObjectPart) → ObjectPart.AllFirm e.Sets parts →
    ∀ part ∈ ObjectPart.addAll parts, Adds e part
  | [], _ => List.forall_mem_nil _
  | part :: rest, h => List.forall_mem_cons.mpr ⟨part.adds_add h.1, ObjectPart.adds_addAll rest h.2⟩

theorem Pattern.binds_bind : (pattern : Pattern) → {Own : BindingMode → Prop} → {here : Bool} →
    (∀ mode, Own mode → here = true ∨ e.Sets mode) → pattern.Firm e.Sets Own → Binds e here pattern.bind
  | .name _ name position, _, _, hown, h => binds_name (hown _ h) name position
  | .member object key, _, _, _, h => binds_member (object.tracks_exec h.1) (key.tracks_eval h.2)
  | .withDefault inner default, _, _, hown, h => binds_default (inner.binds_bind hown h.1) (default.tracks_exec h.2)
  | .object parts label, _, _, hown, h => binds_object (PatternPart.tracks_actions parts hown h) label
  | .array elements label, _, _, hown, h => binds_array (Pattern.binds_elements elements hown h) label

theorem Pattern.binds_elements : (l : List (Option (Pattern × Bool))) → {Own : BindingMode → Prop} → {here : Bool} →
    (∀ mode, Own mode → here = true ∨ e.Sets mode) → Pattern.FirmElements e.Sets l Own →
      ∀ x ∈ Pattern.elements l, ∀ y ∈ x, Binds e here y.1
  | [], _, _, _, _ => List.forall_mem_nil _
  | none :: rest, _, _, hown, h => List.forall_mem_cons.mpr ⟨nofun, Pattern.binds_elements rest hown h⟩
  | some (pattern, takesRest) :: rest, _, _, hown, h => by
    refine List.forall_mem_cons.mpr ⟨?_, Pattern.binds_elements rest hown h.2⟩
    rintro y ⟨⟩
    exact pattern.binds_bind hown h.1

theorem PatternPart.tracks_actions : (parts : List PatternPart) → {Own : BindingMode → Prop} → {here : Bool} →
    (∀ mode, Own mode → here = true ∨ e.Sets mode) → PatternPart.AllFirm e.Sets parts Own →
      ∀ part ∈ PatternPart.actions parts, TracksPart e here part
  | [], _, _, _, _ => List.forall_mem_nil _
  | .property key pattern :: rest, _, _, hown, h =>
    List.forall_mem_cons.mpr
      ⟨⟨key.tracks_eval h.1, pattern.binds_bind hown h.2.1⟩, PatternPart.tracks_actions rest hown h.2.2⟩
  | .rest pattern :: rest, _, _, hown, h =>
    List.forall_mem_cons.mpr ⟨pattern.binds_bind hown h.1, PatternPart.tracks_actions rest hown h.2⟩

theorem ClassTemplate.tracks_action : (template : ClassTemplate) → template.Firm e.Sets → TracksClass e template.action
  | .mk _ _ parent _ members _ _, h =>
    ⟨Code.tracks_exec? parent h.1, h.2.1, ClassMember.tracks_actions members h.2.2⟩

theorem ClassMember.tracks_actions : (members : List ClassMember) → ClassMember.AllFirm e.Sets members →
    ∀ member ∈ ClassMember.actions members, TracksMember e member
  | [], _ => List.forall_mem_nil _
  | .method key _ _ :: rest, h =>
    List.forall_mem_cons.mpr ⟨⟨key.tracks_eval h.1, h.2.1⟩, ClassMember.tracks_actions rest h.2.2⟩
  | .accessor _ :: rest, h => List.forall_mem_cons.mpr ⟨trivial, ClassMember.tracks_actions rest h⟩
  | .field key _ _ false :: rest, h =>
    List.forall_mem_cons.mpr ⟨⟨key.tracks_eval h.1, h.2.1⟩, ClassMember.tracks_actions rest h.2.2⟩
  | .field key init _ true :: rest, h =>
    List.forall_mem_cons.mpr
      ⟨⟨key.tracks_eval h.1, Code.tracks_exec? init h.2.1⟩, ClassMember.tracks_actions rest h.2.2⟩

end

end

end GuestScript
