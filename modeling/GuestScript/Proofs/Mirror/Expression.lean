import GuestScript.Proofs.Mirror.Statement

/-!
# Expressions on mirrors

An expression does the same on both sides, if its parts do. So does a pattern, for every value that is within reach.
-/

namespace GuestScript

variable {l : List (Eval Completion)} {acc : Array Value} {key : Eval Key} {x object : Eval Completion}
  {args : List (Eval Completion × Bool)}

namespace Eval

variable {e : Embedding}

/-! ## 1. Literals -/

theorem tracks_arguments {l : List (Eval Completion × Bool)} (h : ∀ x ∈ l, x.1.Tracks e x.1) (hacc : Within e acc) :
    (arguments l acc).Tracks e (arguments l (image e acc)) := by
  induction l generalizing acc with
  | nil => exact .done hacc
  | cons x l ih =>
    have hrest : ∀ x ∈ l, x.1.Tracks e x.1 := fun y hy => h y (List.mem_cons_of_mem x hy)
    have hx := h x List.mem_cons_self
    obtain ⟨x, spread⟩ := x
    cases spread with
    | false =>
      refine (tracks_valueOf hx).bind fun v hv => ?_
      have hpush := ih hrest (within_push hacc hv)
      rwa [image_array, Array.map_push] at hpush
    | true =>
      refine (tracks_valueOf hx).bind fun v hv => (tracks_display hv).bind fun label _ => ?_
      refine (tracks_iterate hv label).bind fun items hitems => ?_
      have happend := ih hrest (within_appendArray hacc hitems)
      rwa [image_array, Array.map_append] at happend

theorem tracks_arrayElements {l : List (Option (Eval Completion × Option String))}
    (h : ∀ x ∈ l, ∀ y ∈ x, y.1.Tracks e y.1) (hacc : Within e acc) :
    (arrayElements l acc).Tracks e (arrayElements l (image e acc)) := by
  induction l generalizing acc with
  | nil => exact .done hacc
  | cons x l ih =>
    have hrest : ∀ x ∈ l, ∀ y ∈ x, y.1.Tracks e y.1 := fun y hy => h y (List.mem_cons_of_mem x hy)
    have hpush {v : Value} (hv : Within e v) :
        (arrayElements l (acc.push v)).Tracks e (arrayElements l ((image e acc).push (image e v))) := by
      have hpush := ih hrest (within_push hacc hv)
      rwa [image_array, Array.map_push] at hpush
    cases x with
    | none =>
      have hundefined : Within e Value.undefined := trivial
      exact hpush hundefined
    | some x =>
      have hx := h (some x) List.mem_cons_self x rfl
      obtain ⟨x, label⟩ := x
      cases label with
      | none => exact (tracks_valueOf hx).bind fun v hv => hpush hv
      | some label =>
        refine (tracks_valueOf hx).bind fun v hv => (tracks_iterate hv label).bind fun items hitems => ?_
        have happend := ih hrest (within_appendArray hacc hitems)
        rwa [image_array, Array.map_append] at happend

theorem tracks_arrayLiteral {l : List (Option (Eval Completion × Option String))}
    (h : ∀ x ∈ l, ∀ y ∈ x, y.1.Tracks e y.1) : (arrayLiteral l).Tracks e (arrayLiteral l) := by
  have helements := tracks_arrayElements h within_empty
  rw [image_emptyArray] at helements
  exact helements.bind fun elements helements => (tracks_newArray helements).bind fun v hv => .done hv

/-- An action that adds something to an object, wherever the object is. -/
def Adds (e : Embedding) (part : ObjectId → Eval Unit) : Prop :=
  ∀ id, e.Open id → (part id).Tracks e (part (e.object id))

theorem tracks_objectLiteral {parts : List (ObjectId → Eval Unit)} (h : ∀ part ∈ parts, Adds e part) :
    (objectLiteral parts).Tracks e (objectLiteral parts) := by
  refine tracks_newPlain.bind fun id hid => ?_
  have hparts : (parts.forM fun part => part id).Tracks e (parts.forM fun part => part (e.object id)) :=
    tracks_forM_same fun part hpart => h part hpart id hid
  exact hparts.bind fun _ _ => .done hid

theorem adds_value {value : Eval Completion} (hkey : key.Tracks e key) (hvalue : value.Tracks e value) :
    Adds e (addValue key value) := by
  refine fun id hid => hkey.bind fun key _ => (tracks_valueOf hvalue).bind fun v hv => ?_
  have hd : Within e (Descriptor.data v true key.name?.isSome true) := ⟨within_some.mpr hv, within_none, within_none⟩
  rw [Key.name?_image]
  exact (tracks_defineOwn hid key hd).discard

theorem adds_getter {function : Eval Completion} (hkey : key.Tracks e key) (hfunction : function.Tracks e function) :
    Adds e (addGetter key function) := by
  refine fun id hid => hkey.bind fun key _ => (tracks_valueOf hfunction).bind fun f hf => ?_
  have hd : Within e ({ getter := some f, enumerable := some true, configurable := some true } : Descriptor) :=
    ⟨within_none, within_some.mpr hf, within_none⟩
  exact (tracks_defineOwn hid key hd).discard

theorem adds_setter {function : Eval Completion} (hkey : key.Tracks e key) (hfunction : function.Tracks e function) :
    Adds e (addSetter key function) := by
  refine fun id hid => hkey.bind fun key _ => (tracks_valueOf hfunction).bind fun f hf => ?_
  have hd : Within e ({ setter := some f, enumerable := some true, configurable := some true } : Descriptor) :=
    ⟨within_none, within_none, within_some.mpr hf⟩
  exact (tracks_defineOwn hid key hd).discard

theorem adds_spread {source : Eval Completion} (hsource : source.Tracks e source) : Adds e (addSpread source) :=
  fun _ hid => (tracks_valueOf hsource).bind fun _ hv => tracks_copyProperties hid hv

theorem tracks_functionValue {template : Template} (htemplate : template.Firm e.Sets) :
    (functionValue template).Tracks e (functionValue template) := by
  refine tracks_currentReceiver.bind fun current hcurrent => tracks_currentScope.bind fun scope hscope => ?_
  have hkept : Within e (if template.isArrow then some current else none) ∧
      (if template.isArrow then some (image e current) else none) =
        image e (if template.isArrow then some current else none) := by
    split
    · exact ⟨within_some.mpr hcurrent, rfl⟩
    · exact ⟨within_none, rfl⟩
  rw [hkept.2]
  have hclosure : Within e (Callable.closure template scope (if template.isArrow then some current else none)) :=
    ⟨htemplate, hscope, hkept.1⟩
  exact (tracks_newFunction hclosure).bind fun id hid => .done hid

theorem tracks_this : this.Tracks e this :=
  tracks_currentReceiver.bind fun _ hv => (tracks_hideGlobal hv).bind fun _ hw => .done hw

theorem tracks_templateText (h : ∀ x ∈ l, x.Tracks e x) (texts : List String) (acc : String) :
    (templateText texts l acc).Tracks e (templateText texts l acc) := by
  induction texts generalizing l acc with
  | nil => exact .done trivial
  | cons text texts ih =>
    cases l with
    | nil => exact ih h _
    | cons x l =>
      refine (tracks_valueOf (h x List.mem_cons_self)).bind fun v hv => (tracks_toText hv).bind fun piece _ => ?_
      exact ih (fun y hy => h y (List.mem_cons_of_mem x hy)) _

/-! ## 2. Members and calls -/

instance : Carried Reference where
  Within e r := Within e r.receiver ∧ Within e r.value
  image e r := ⟨image e r.receiver, image e r.value⟩

/-- The value of a link of a chain, with a receiver. -/
theorem tracks_reference {receiver v : Value} (hreceiver : Within e receiver) (hv : Within e v) :
    (pure (some ⟨receiver, v⟩) : Eval (Option Reference)).Tracks e
      (pure (some ⟨image e receiver, image e v⟩)) :=
  have hr : Within e (⟨receiver, v⟩ : Reference) := ⟨hreceiver, hv⟩
  follows_pure (within_some.mpr hr) rfl

theorem tracks_noReference : (pure none : Eval (Option Reference)).Tracks e (pure none) :=
  .done within_none

theorem tracks_computedKey (hx : x.Tracks e x) : (computedKey x).Tracks e (computedKey x) :=
  (tracks_valueOf hx).bind fun _ hv => tracks_toKey hv

theorem tracks_memberLink {object : Eval (Option Reference)} (hobject : object.Tracks e object)
    (hkey : key.Tracks e key) (position : Option Position) (optional : Bool) :
    (memberLink position object key optional).Tracks e (memberLink position object key optional) := by
  refine (tracks_tick position).bind fun _ _ => hobject.bind fun target htarget => ?_
  cases target with
  | none => exact tracks_noReference
  | some target =>
    obtain ⟨hreceiver, hvalue⟩ := within_some.mp htarget
    refine Follows.ite ?_ (fun _ => tracks_noReference) fun _ => ?_
    · rw [show (image e target).value = image e target.value from rfl, Value.isNullish_image]
    · refine hkey.bind fun key _ => (tracks_getMember hvalue key position).bind fun v hv => ?_
      exact tracks_reference hvalue hv

theorem tracks_superMemberLink (hkey : key.Tracks e key) (position : Option Position) :
    (superMemberLink position key).Tracks e (superMemberLink position key) := by
  refine (tracks_tick position).bind fun _ _ => (tracks_readName "super" position).bind fun parent hparent => ?_
  refine (tracks_getNamed hparent "prototype").bind fun prototype hprototype => hkey.bind fun key _ => ?_
  refine (tracks_get hprototype key).bind fun v hv => tracks_currentReceiver.bind fun receiver hreceiver => ?_
  exact tracks_reference hreceiver hv

theorem tracks_superCallLink (hargs : ∀ x ∈ args, x.1.Tracks e x.1) (position : Option Position) :
    (superCallLink position args).Tracks e (superCallLink position args) := by
  refine (tracks_tick position).bind fun _ _ => (tracks_readName "super" position).bind fun parent hparent => ?_
  cases parent with
  | object parent =>
    have hvalues := tracks_arguments hargs within_empty
    rw [image_emptyArray] at hvalues
    refine hvalues.bind fun values hvalues => tracks_currentReceiver.bind fun receiver hreceiver => ?_
    refine (tracks_initParent hparent hreceiver hvalues).discard.bind fun _ _ => ?_
    exact tracks_reference Value.within_undefined Value.within_undefined
  | _ => exact follows_raise _ _ _

theorem tracks_callValue {function receiver : Value} {values : Array Value} (hfunction : Within e function)
    (hreceiver : Within e receiver) (hvalues : Within e values) (label : String) (position : Option Position) :
    (callValue function receiver values label position).Tracks e
      (callValue (image e function) (image e receiver) (image e values) label position) := by
  refine (tracks_isCallable hfunction).bind fun isFunction _ => Follows.ite Iff.rfl (fun _ => ?_) fun _ => ?_
  · exact (tracks_call hfunction hreceiver hvalues rfl).bind fun v hv => tracks_hideGlobal hv
  · exact follows_raise _ _ _

theorem tracks_evalByName (kind : ScopeKind) {values : Array Value} (hvalues : Within e values) :
    (evalByName kind values).Tracks e (evalByName kind (image e values)) := by
  have hcode := within_getElem? hvalues 0
  have himage : (image e values)[0]? = image e values[0]? := by
    simp [image_array, image_option]
  have hlocal : (do evalText values[0]? (← currentScope) (← currentReceiver)).Tracks e
      (do evalText (image e values)[0]? (← currentScope) (← currentReceiver)) := by
    refine tracks_currentScope.bind fun scope hscope => tracks_currentReceiver.bind fun receiver hreceiver => ?_
    rw [himage]
    exact tracks_evalText hcode hscope hreceiver
  have hglobal : (do
        let m ← read fun m => (m.globalScope, m.bindings)
        evalText values[0]? m.1 (.object m.2)).Tracks e
      (do
        let m ← read fun m => (m.globalScope, m.bindings)
        evalText (image e values)[0]? m.1 (.object m.2)) := by
    have hread : (read fun m => (m.globalScope, m.bindings)).Tracks e (read fun m => (m.globalScope, m.bindings)) :=
      .read fun s s' h => ⟨⟨h.within_globalScope, h.within_bindings⟩, by rw [h.globalScope, h.bindings]; rfl⟩
    refine hread.bind fun m hm => ?_
    rw [himage]
    exact tracks_evalText hcode hm.1 (Value.within_object hm.2)
  cases kind with
  | super | root | global => exact hlocal
  | function | block | withObject => exact hglobal

theorem tracks_isEvalText {v : Value} (hv : Within e v) : (isEvalText v).Tracks e (isEvalText (image e v)) := by
  refine (tracks_callable? hv).bind fun c _ => ?_
  cases c with
  | none => exact .done trivial
  | some c => cases c <;> exact .done trivial

theorem tracks_callNameLink (hargs : ∀ x ∈ args, x.1.Tracks e x.1) (position : Option Position) (name : String)
    (optional : Bool) (label : String) :
    (callNameLink position name args optional label).Tracks e
      (callNameLink position name args optional label) := by
  have hvalues := tracks_arguments hargs within_empty
  rw [image_emptyArray] at hvalues
  refine (tracks_tick position).bind fun _ _ => (follows_resolveValue name position).bind fun found hfound => ?_
  obtain ⟨scope, function⟩ := found
  obtain ⟨hscope, hfunction⟩ := hfound
  refine Follows.ite (by rw [Value.isNullish_image]) (fun _ => tracks_noReference) fun _ => ?_
  refine hvalues.bind fun values hvalues => (tracks_scopeAt hscope).bind fun s hs => ?_
  have hcall : (do
        let receiver := if s.kind = .withObject then .object s.data else .undefined
        let v ← callValue function receiver values label position
        pure (some ⟨.undefined, v⟩) : Eval (Option Reference)).Tracks e
      (do
        let receiver := if s.kind = .withObject then .object (e.object s.data) else .undefined
        let v ← callValue (image e function) receiver (image e values) label position
        pure (some ⟨.undefined, v⟩)) := by
    have hreceiver : Within e (if s.kind = .withObject then Value.object s.data else .undefined) ∧
        (if s.kind = .withObject then Value.object (e.object s.data) else .undefined) =
          image e (if s.kind = .withObject then Value.object s.data else .undefined) := by
      split
      · rename_i hkind
        exact ⟨Value.within_object (hs.opened (by rw [hkind]; rfl)), rfl⟩
      · exact ⟨trivial, rfl⟩
    dsimp only
    rw [hreceiver.2]
    exact (tracks_callValue hfunction hreceiver.1 hvalues label position).bind fun v hv =>
      tracks_reference Value.within_undefined hv
  refine (tracks_isEvalText hfunction).bind fun isEval _ => Follows.ite Iff.rfl (fun _ => ?_) fun _ => hcall
  exact (tracks_evalByName s.kind hvalues).bind fun v hv => tracks_reference Value.within_undefined hv

theorem tracks_callLink {callee : Eval (Option Reference)} (hcallee : callee.Tracks e callee)
    (hargs : ∀ x ∈ args, x.1.Tracks e x.1) (position : Option Position) (optional : Bool) (label : String) :
    (callLink position callee args optional label).Tracks e (callLink position callee args optional label) := by
  have hvalues := tracks_arguments hargs within_empty
  rw [image_emptyArray] at hvalues
  refine (tracks_tick position).bind fun _ _ => hcallee.bind fun target htarget => ?_
  cases target with
  | none => exact tracks_noReference
  | some target =>
    obtain ⟨hreceiver, hvalue⟩ := within_some.mp htarget
    refine Follows.ite ?_ (fun _ => tracks_noReference) fun _ => hvalues.bind fun values hvalues => ?_
    · rw [show (image e target).value = image e target.value from rfl, Value.isNullish_image]
    · exact (tracks_callValue hvalue hreceiver hvalues label position).bind fun v hv =>
        tracks_reference Value.within_undefined hv

theorem tracks_chain {link : Eval (Option Reference)} (hlink : link.Tracks e link) :
    (chain link).Tracks e (chain link) := by
  refine hlink.bind fun r hr => ?_
  cases r with
  | none => exact .done trivial
  | some r => exact .done (within_some.mp hr).2

theorem tracks_constructValue {callee : Eval Completion} (hcallee : callee.Tracks e callee)
    (hargs : ∀ x ∈ args, x.1.Tracks e x.1) (label : String) (position : Option Position) :
    (constructValue callee args label position).Tracks e (constructValue callee args label position) := by
  have hvalues := tracks_arguments hargs within_empty
  rw [image_emptyArray] at hvalues
  refine (tracks_valueOf hcallee).bind fun function hfunction => hvalues.bind fun values hvalues => ?_
  refine (tracks_isConstructor hfunction).bind fun _ _ => Follows.ite Iff.rfl (fun _ => ?_) fun _ => ?_
  · exact (tracks_construct hfunction hvalues).bind fun v hv => .done hv
  · exact follows_raise _ _ _

theorem tracks_values (h : ∀ x ∈ l, x.Tracks e x) (hacc : Within e acc) :
    (values l acc).Tracks e (values l (image e acc)) := by
  induction l generalizing acc with
  | nil => exact .done hacc
  | cons x l ih =>
    refine (tracks_valueOf (h x List.mem_cons_self)).bind fun v hv => ?_
    have hpush := ih (fun y hy => h y (List.mem_cons_of_mem x hy)) (within_push hacc hv)
    rwa [image_array, Array.map_push] at hpush

/-- The value of a list of expressions is the last one. -/
theorem tracks_lastValue (h : ∀ x ∈ l, x.Tracks e x) :
    (do return .value ((← values l #[]).back?.getD .undefined) : Eval Completion).Tracks e
      (do return .value ((← values l #[]).back?.getD .undefined)) := by
  have hvalues := tracks_values h (e := e) within_empty
  rw [image_emptyArray] at hvalues
  refine hvalues.bind fun all hall => follows_pure ?_ ?_
  · exact within_getD (fun v hv => hall v (Array.mem_of_back? hv)) Value.within_undefined
  · have hback : (image e all).back? = image e all.back? := Array.back?_map
    rw [hback]
    exact congrArg Completion.value (getD_image all.back? .undefined)

/-- Values that are written down hold no address. -/
theorem within_literal (literal : Literal) : Within e literal.value := by
  cases literal <;> exact trivial

theorem image_literal (literal : Literal) : image e literal.value = literal.value := by
  cases literal <;> rfl

theorem within_literals (literals : List Literal) : Within e (literals.map Literal.value).toArray := by
  refine within_toArray fun v hv => ?_
  obtain ⟨literal, -, rfl⟩ := List.mem_map.mp hv
  exact within_literal literal

theorem image_literals (literals : List Literal) :
    image e (literals.map Literal.value).toArray = (literals.map Literal.value).toArray := by
  simp [image_array, image_literal]

theorem tracks_taggedTemplate {tag : Eval (Option Reference)} (htag : tag.Tracks e tag) (cooked raw : List Literal)
    {expressions : List (Eval Completion)} (hexpressions : ∀ x ∈ expressions, x.Tracks e x) (label : String)
    (position : Option Position) :
    (taggedTemplate tag (cooked.map Literal.value) (raw.map Literal.value) expressions label position).Tracks e
      (taggedTemplate tag (cooked.map Literal.value) (raw.map Literal.value) expressions label position) := by
  have hwritten := tracks_newArray (within_literals (e := e) raw)
  rw [image_literals] at hwritten
  refine htag.bind fun target htarget => hwritten.bind fun written hwritten => ?_
  have hnone : Within e (⟨.undefined, .undefined⟩ : Reference) := ⟨trivial, trivial⟩
  have hreference := within_getD htarget hnone
  have htexts : Within e
      ({ prototype := some Intrinsic.arrayPrototype.id, sort := .array,
         elements := some (cooked.map Literal.value).toArray,
         properties := #[(.string "raw", .hidden written)] } : Object) :=
    { Object.within_default with
      prototype := within_intrinsic _, elements := within_some.mpr (within_literals cooked),
      properties := within_singleton ⟨trivial, hwritten⟩ }
  refine (tracks_allocate htexts (by simp [image_literals])).bind fun texts htexts => ?_
  have hvalues := tracks_values hexpressions (within_singleton (Value.within_object htexts))
  rw [image_singleton] at hvalues
  refine hvalues.bind fun args hargs => ?_
  have htarget : (image e target).getD ⟨.undefined, .undefined⟩ = image e (target.getD ⟨.undefined, .undefined⟩) :=
    getD_image target ⟨.undefined, .undefined⟩
  rw [htarget]
  exact (tracks_callValue hreference.2 hreference.1 hargs label position).bind fun v hv => .done hv

/-! ## 3. Assignments -/

theorem tracks_updateName (name : String) (delta : Float) (isPrefix : Bool) (position : Option Position) :
    (updateName name delta isPrefix position).Tracks e (updateName name delta isPrefix position) := by
  refine (tracks_readName name position).bind fun v hv => (tracks_toNumber hv).bind fun old _ => ?_
  have hnew : Within e (Value.number (old + delta)) := trivial
  exact (tracks_assignName name hnew position).bind fun _ _ => .done trivial

theorem tracks_updateMember (hobject : object.Tracks e object) (hkey : key.Tracks e key) (delta : Float)
    (isPrefix : Bool) (position : Option Position) :
    (updateMember object key delta isPrefix position).Tracks e
      (updateMember object key delta isPrefix position) := by
  refine (tracks_valueOf hobject).bind fun target htarget => hkey.bind fun key _ => ?_
  refine (tracks_getMember htarget key position).bind fun v hv => (tracks_toNumber hv).bind fun old _ => ?_
  have hnew : Within e (Value.number (old + delta)) := trivial
  exact (tracks_put htarget key hnew).bind fun _ _ => .done trivial

theorem tracks_assignedValue (operator : AssignmentOperator) {current : Value} (hcurrent : Within e current)
    (hx : x.Tracks e x) :
    (assignedValue operator current x).Tracks e (assignedValue operator (image e current) x) := by
  have hvalue : (do return some (← valueOf x) : Eval (Option Value)).Tracks e (do return some (← valueOf x)) :=
    (tracks_valueOf hx).bind fun v hv => .done (within_some.mpr hv)
  have hbinary (op : BinaryOperator) : (do
        let v ← valueOf x
        return some (← binary op current v) : Eval (Option Value)).Tracks e
      (do
        let v ← valueOf x
        return some (← binary op (image e current) v)) :=
    (tracks_valueOf hx).bind fun v hv => (tracks_binary op hcurrent hv).bind fun w hw => .done (within_some.mpr hw)
  have hkeep : (pure none : Eval (Option Value)).Tracks e (pure none) := .done within_none
  cases operator with
  | or => exact Follows.ite (by rw [Value.truthy_image]) (fun _ => hkeep) fun _ => hvalue
  | and => exact Follows.ite (by rw [Value.truthy_image]) (fun _ => hvalue) fun _ => hkeep
  | nullish => exact Follows.ite (by rw [Value.isNullish_image]) (fun _ => hvalue) fun _ => hkeep
  | _ => first | exact hvalue | exact hbinary _

theorem tracks_assignBy (operator : AssignmentOperator) {current current' : Eval Value}
    (hcurrent : current.Tracks e current') {write write' : Value → Eval Unit}
    (hwrite : ∀ v, Within e v → (write v).Tracks e (write' (image e v))) (hx : x.Tracks e x) :
    (assignBy operator current write x).Tracks e (assignBy operator current' write' x) := by
  refine Follows.ite Iff.rfl (fun _ => ?_) fun _ => ?_
  · refine hcurrent.bind fun old hold => (tracks_assignedValue operator hold hx).bind fun v hv => ?_
    cases v with
    | none => exact .done hold
    | some v =>
      have hv : Within e v := within_some.mp hv
      exact (hwrite v hv).bind fun _ _ => .done hv
  · exact (tracks_valueOf hx).bind fun v hv => (hwrite v hv).bind fun _ _ => .done hv

theorem tracks_assignNameBy (operator : AssignmentOperator) (name : String) (hx : x.Tracks e x)
    (position : Option Position) :
    (assignNameBy operator name x position).Tracks e (assignNameBy operator name x position) :=
  tracks_assignBy operator (tracks_readName name position) (fun _ hv => tracks_assignName name hv position) hx

theorem tracks_assignMemberBy (operator : AssignmentOperator) (hobject : object.Tracks e object)
    (hkey : key.Tracks e key) (hx : x.Tracks e x) (position : Option Position) :
    (assignMemberBy operator object key x position).Tracks e (assignMemberBy operator object key x position) :=
  (tracks_valueOf hobject).bind fun _ htarget => hkey.bind fun key _ =>
    tracks_assignBy operator (tracks_getMember htarget key position) (fun _ hv => tracks_put htarget key hv) hx

theorem tracks_assignPattern {bind : Value → Eval Unit} (hbind : Binds e false bind) (hx : x.Tracks e x) :
    (assignPattern bind x).Tracks e (assignPattern bind x) :=
  (tracks_valueOf hx).bind fun v hv => (hbind v hv).bind fun _ _ => .done hv

theorem tracks_logical (operator : LogicalOperator) {left right : Eval Completion} (hleft : left.Tracks e left)
    (hright : right.Tracks e right) : (logical operator left right).Tracks e (logical operator left right) := by
  refine (tracks_valueOf hleft).bind fun l hl => ?_
  cases operator with
  | or => exact Follows.ite (by rw [Value.truthy_image]) (fun _ => .done hl) fun _ => hright
  | and => exact Follows.ite (by rw [Value.truthy_image]) (fun _ => .done hl) fun _ => hright
  | _ => exact Follows.ite (by rw [Value.isNullish_image]) (fun _ => .done hl) fun _ => hright

/-! ## 4. Patterns -/

variable {here : Bool}

theorem binds_name {mode : BindingMode} (hmode : here = true ∨ e.Sets mode) (name : String)
    (position : Option Position) : Binds e here (bindName mode name position) := by
  intro v hv
  cases mode with
  | var | assign => exact (tracks_assignName name hv position).as
  | lexical => exact (tracks_initializeName name hv position).as
  | parameter => exact tracks_setLocal hmode name hv

theorem binds_member (hobject : object.Tracks e object) (hkey : key.Tracks e key) :
    Binds e here (bindMember object key) :=
  fun _ hv => (tracks_valueOf hobject).bind fun _ htarget => hkey.bind fun key _ => (tracks_put htarget key hv).as

theorem binds_default {bind : Value → Eval Unit} {default : Eval Completion} (hbind : Binds e here bind)
    (hdefault : default.Tracks e default) : Binds e here (bindDefault bind default) :=
  fun v hv => Follows.ite (by rw [Value.isUndefined_image])
    (fun _ => (tracks_valueOf hdefault).bind fun w hw => hbind w hw) fun _ => hbind v hv

theorem tracks_restObject {source : Value} (hsource : Within e source) {used : List Key} :
    (restObject source used).Tracks e (restObject (image e source) (image e used)) := by
  refine tracks_newPlain.bind fun rest hrest => ?_
  cases source with
  | object id =>
    refine (tracks_enumerableNames_own hsource).bind fun names _ => ?_
    refine Follows.bind (tracks_forM_same fun name _ => Follows.ite ?_ (fun _ => tracks_unit) fun _ => ?_) fun _ _ =>
      .done hrest
    · simp [image_list]
    · exact (tracks_getNamed (Value.within_object hsource) name).bind fun v hv => tracks_insert hrest name hv
  | _ => exact .done hrest

/-- What a part of an object pattern is put together from. -/
def TracksPart (e : Embedding) (here : Bool) : PartAction → Prop
  | .property key bind => key.Tracks e key ∧ Binds e here bind
  | .rest bind => Binds e here bind

theorem tracks_bindParts {source : Value} (hsource : Within e source) {l : List PartAction}
    (h : ∀ part ∈ l, TracksPart e here part) (used : List Key) :
    (bindParts source l used).TracksAs e here (bindParts (image e source) l (image e used)) := by
  induction l generalizing used with
  | nil => exact tracks_unit.as
  | cons part l ih =>
    have hrest : ∀ part ∈ l, TracksPart e here part := fun p hp => h p (List.mem_cons_of_mem part hp)
    have hpart := h part List.mem_cons_self
    cases part with
    | property key bind =>
      exact hpart.1.bind fun key _ => (tracks_get hsource key).bind fun v hv => (hpart.2 v hv).bind fun _ _ =>
        ih hrest (key :: used)
    | rest bind =>
      exact (tracks_restObject hsource).bind fun id hid => (hpart _ (Value.within_object hid)).bind fun _ _ =>
        ih hrest used

theorem binds_object {parts : List PartAction} (h : ∀ part ∈ parts, TracksPart e here part) (label : String) :
    Binds e here (bindObject parts label) := by
  intro v hv
  refine Follows.ite (by rw [Value.isNullish_image]) (fun _ => ?_) fun _ => tracks_bindParts hv h []
  exact (tracks_display hv).bind fun _ _ => (follows_throwTypeError _).as

theorem tracks_bindElements {items : Array Value} (hitems : Within e items)
    {l : List (Option ((Value → Eval Unit) × Bool))} (h : ∀ x ∈ l, ∀ y ∈ x, Binds e here y.1) (i : Nat) :
    (bindElements items l i).TracksAs e here (bindElements (image e items) l i) := by
  induction l generalizing i with
  | nil => exact tracks_unit.as
  | cons x l ih =>
    have hrest : ∀ x ∈ l, ∀ y ∈ x, Binds e here y.1 := fun y hy => h y (List.mem_cons_of_mem x hy)
    cases x with
    | none => exact ih hrest (i + 1)
    | some x =>
      have hbind := h (some x) List.mem_cons_self x rfl
      obtain ⟨bind, takesRest⟩ := x
      refine Follows.ite Iff.rfl (fun _ => ?_) fun _ => ?_
      · have hsize : (image e items).size = items.size := Array.size_map
        rw [hsize, extract_image]
        exact (tracks_newArray (within_extract hitems i items.size)).bind fun v hv => (hbind v hv).bind fun _ _ =>
          ih hrest (i + 1)
      · have hitem : Within e (items.getD i .undefined) := within_item hitems i
        rw [getD_item_image]
        exact (hbind _ hitem).bind fun _ _ => ih hrest (i + 1)

theorem binds_array {elements : List (Option ((Value → Eval Unit) × Bool))}
    (h : ∀ x ∈ elements, ∀ y ∈ x, Binds e here y.1) (label : String) : Binds e here (bindArray elements label) :=
  fun _ hv => (tracks_iterate hv label).bind fun _ hitems => tracks_bindElements hitems h 0

end Eval

end GuestScript
