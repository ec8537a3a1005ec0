import GuestScript.Proofs.Trust.Object

/-!
# Trust in code

Code writes to objects only by `put`, `defineOrThrow` and `deleteProperty`, or while it makes them: literals, patterns
that collect a rest, and classes. So all code is trusted, wherever a result may be noted.

The construct of a statement or an expression is trusted if its parts are; `Code.trusted_exec` puts this together by
recursion on the code.
-/

namespace GuestScript

variable {x body test object : Eval Completion} {l tests bodies : List (Eval Completion)}
  {update : Option (Eval Completion)} {bind : Value → Eval Unit} {key : Eval Key} {id : ObjectId}
  {args : List (Eval Completion × Bool)}

namespace Eval

variable {α : Type} {w : Watch}

/-! ## 1. Statements -/

section Statements

@[simp] theorem trusted_step {x : Eval α} (hx : x.Trusted w) (position : Option Position) :
    (step position x).Trusted w := by
  unfold step
  simp [*]

@[simp] theorem trusted_valueOf (hx : x.Trusted w) : (valueOf x).Trusted w := by
  unfold valueOf
  simp [*]

theorem trusted_sequence (h : ∀ x ∈ l, x.Trusted w) (last : Completion) : (sequence l last).Trusted w := by
  induction l generalizing last with
  | nil => trivial
  | cons x l ih =>
    unfold sequence
    have hrest := ih fun y hy => h y (List.mem_cons_of_mem _ hy)
    refine (h x List.mem_cons_self).bind fun c _ => ?_
    split
    · exact hrest _
    · exact hrest _
    · exact hrest _
    · trivial

@[simp] theorem trusted_noteResult (hn : w.notes = true) (v : Value) : (noteResult v).Trusted w := hn

theorem trusted_expressionStatement (hn : w.notes = true) (hx : x.Trusted w) : (expressionStatement x).Trusted w := by
  unfold expressionStatement
  simp [*]

@[simp] theorem trusted_inBlock {x : Eval α} (hx : x.Trusted w) (frame : LexicalFrame)
    (functions : List (String × Template)) : (inBlock frame functions x).Trusted w := by
  unfold inBlock
  simp [*]

theorem trusted_block (hx : x.Trusted w) (frame : LexicalFrame) (functions : List (String × Template)) :
    (block frame functions x).Trusted w := by
  unfold block
  simp [*]

theorem trusted_withObject {subject : Eval Completion} (hs : subject.Trusted w) (hb : body.Trusted w) :
    (withObject subject body).Trusted w := by
  unfold withObject
  simp [*]

theorem trusted_exit {x : Option (Eval Completion)} (hx : ∀ y ∈ x, y.Trusted w) : (exit x).Trusted w := by
  cases x with
  | none => trivial
  | some x => exact (trusted_valueOf (hx x rfl)).bind fun _ _ => trivial

theorem trusted_labeled (hx : x.Trusted w) (label : String) : (labeled label x).Trusted w := by
  refine hx.bind fun c _ => ?_
  split <;> trivial

theorem trusted_branch {consequent alternate : Eval Completion} (ht : test.Trusted w) (hc : consequent.Trusted w)
    (ha : alternate.Trusted w) : (branch test consequent alternate).Trusted w := by
  unfold branch
  simp [*]

@[simp] theorem trusted_chooseCase (h : ∀ x ∈ l, x.Trusted w) (v : Value) (i : Nat) (fallback : Option Nat) :
    (chooseCase v l i fallback).Trusted w := by
  induction l generalizing i fallback with
  | nil => trivial
  | cons x l ih =>
    unfold chooseCase
    have hrest := ih fun y hy => h y (List.mem_cons_of_mem _ hy)
    refine (h x List.mem_cons_self).bind fun c _ => ?_
    split
    · exact hrest _ _
    · split
      · trivial
      · exact hrest _ _

@[simp] theorem trusted_switchBodies (h : ∀ x ∈ l, x.Trusted w) (last : Completion) :
    (switchBodies l last).Trusted w := by
  induction l generalizing last with
  | nil => trivial
  | cons x l ih =>
    unfold switchBodies
    have hrest := ih fun y hy => h y (List.mem_cons_of_mem _ hy)
    refine (h x List.mem_cons_self).bind fun c _ => ?_
    split
    · trivial
    · exact hrest _
    · exact hrest _
    · exact hrest _
    · trivial

@[simp] theorem trusted_switchCases (ht : ∀ x ∈ tests, x.Trusted w) (hb : ∀ x ∈ bodies, x.Trusted w) (v : Value) :
    (switchCases v tests bodies).Trusted w := by
  have hdrop : ∀ i, ∀ x ∈ bodies.drop i, x.Trusted w := fun i x hx => hb x (List.mem_of_mem_drop hx)
  refine (trusted_chooseCase ht v 0 none).bind fun place _ => ?_
  cases place with
  | none => trivial
  | some i => exact trusted_switchBodies (hdrop i) _

theorem trusted_switch {discriminant : Eval Completion} (hd : discriminant.Trusted w) (ht : ∀ x ∈ tests, x.Trusted w)
    (hb : ∀ x ∈ bodies, x.Trusted w) (frame : LexicalFrame) (functions : List (String × Template)) :
    (switch discriminant frame functions tests bodies).Trusted w := by
  refine (trusted_valueOf hd).bind fun v _ => ?_
  split
  · exact trusted_switchCases ht hb v
  · exact trusted_inBlock (trusted_switchCases ht hb v) frame functions

/-- What the handler of a try statement is put together from. -/
def TrustedHandler (handler : Option (Option (Value → Eval Unit) × Eval Completion)) (w : Watch) : Prop :=
  ∀ h ∈ handler, (∀ bind ∈ h.1, ∀ v, (bind v).Trusted w) ∧ h.2.Trusted w

theorem trusted_guarded {handler : Option (Option (Value → Eval Unit) × Eval Completion)} (hb : body.Trusted w)
    (hh : TrustedHandler handler w) : (guarded body handler).Trusted w := by
  unfold guarded
  cases handler with
  | none => exact hb
  | some h =>
    obtain ⟨hbind, hbody⟩ := hh h rfl
    have hhandle : ∀ v, (handle h v).Trusted w := by
      intro v
      refine trusted_currentScope.bind fun scope _ => (trusted_newFrame _ _ _).bind fun inner _ => ?_
      rw [trusted_inScope]
      cases hh : h.1 with
      | none => exact hbody
      | some bind => exact (hbind bind hh v).bind fun _ _ => hbody
    refine ((trusted_settle body).mpr hb).bind fun result _ => ?_
    cases result with
    | ok c => trivial
    | error thrown => exact hhandle thrown

theorem trusted_attempt {handler : Option (Option (Value → Eval Unit) × Eval Completion)}
    {finalizer : Option (Eval Completion)} (hb : body.Trusted w) (hh : TrustedHandler handler w)
    (hf : ∀ x ∈ finalizer, x.Trusted w) :
    (attempt body handler finalizer).Trusted w := by
  have hguarded := trusted_guarded hb hh
  unfold attempt
  cases finalizer with
  | none => exact hguarded
  | some last =>
    refine ((trusted_settle _).mpr hguarded).bind fun result _ => (hf last rfl).bind fun c _ => ?_
    cases result <;> simp

/-! ### Loops -/

theorem trusted_whileLoop (ht : test.Trusted w) (hb : body.Trusted w) (labels : List String) :
    (whileLoop labels test body).Trusted w := by
  unfold whileLoop
  simp [*]

theorem trusted_doLoop (hb : body.Trusted w) (ht : test.Trusted w) (labels : List String) :
    (doLoop labels body test).Trusted w := by
  refine (trusted_loop _ _).mpr fun last => hb.bind fun c _ => ?_
  split
  · trivial
  · exact (trusted_valueOf ht).bind fun _ _ => trivial

@[simp] theorem trusted_passes {x : Option (Eval Completion)} (hx : ∀ y ∈ x, y.Trusted w) :
    (passes x).Trusted w := by
  cases x with
  | none => trivial
  | some x => exact (trusted_valueOf (hx x rfl)).bind fun _ _ => trivial

@[simp] theorem trusted_optionally {x : Option (Eval Completion)} (hx : ∀ y ∈ x, y.Trusted w) :
    (optionally x).Trusted w := by
  unfold optionally
  split <;> simp +contextual [*]

@[simp] theorem trusted_nextScope (copies : Bool) (scope : ScopeId) : (nextScope copies scope).Trusted w := by
  unfold nextScope
  simp

@[simp] theorem trusted_forRound {test : Option (Eval Completion)} (ht : ∀ x ∈ test, x.Trusted w)
    (hu : ∀ x ∈ update, x.Trusted w) (hb : body.Trusted w) (labels : List String) (copies : Bool) (last : Completion)
    (scope : ScopeId) :
    (forRound labels copies test update body last scope).Trusted w := by
  refine (trusted_passes ht).bind fun passed _ => ?_
  split
  · refine hb.bind fun c _ => ?_
    split
    · trivial
    · refine (trusted_nextScope copies scope).bind fun next _ => ?_
      exact ((trusted_inScope _ _).mpr (trusted_optionally hu)).bind fun _ _ => trivial
  · trivial

theorem trusted_forLoop {init test : Option (Eval Completion)} (hi : ∀ x ∈ init, x.Trusted w)
    (ht : ∀ x ∈ test, x.Trusted w) (hu : ∀ x ∈ update, x.Trusted w) (hb : body.Trusted w) (labels : List String)
    (frame : LexicalFrame) :
    (forLoop labels frame init test update body).Trusted w := by
  unfold forLoop
  simp +contextual [*]

theorem trusted_forInRound (hbind : ∀ v, (bind v).Trusted w) (hb : body.Trusted w) (frame : LexicalFrame)
    (name : String) :
    (forInRound bind frame body name).Trusted w := by
  unfold forInRound
  simp [*]

theorem trusted_forInRounds (hbind : ∀ v, (bind v).Trusted w) (hb : body.Trusted w) (labels : List String)
    (subject : ObjectId) (frame : LexicalFrame) (names : List String) (last : Completion) :
    (forInRounds labels subject bind frame body names last).Trusted w := by
  induction names generalizing last with
  | nil => trivial
  | cons name names ih =>
    refine (trusted_hasProperty _ _).bind fun has _ => ?_
    split
    · refine (trusted_forInRound hbind hb frame name).bind fun c _ => ?_
      split
      · trivial
      · exact ih _
    · exact ih last

theorem trusted_forIn {subject : Eval Completion} (hs : subject.Trusted w) (hbind : ∀ v, (bind v).Trusted w)
    (hb : body.Trusted w) (labels : List String) (frame : LexicalFrame) :
    (forIn labels subject bind frame body).Trusted w := by
  have hrounds := fun id names => trusted_forInRounds hbind hb labels id frame names .empty
  unfold forIn
  simp [*]

theorem trusted_declare {l : List ((Value → Eval Unit) × Option (Eval Completion))}
    (h : ∀ d ∈ l, (∀ v, (d.1 v).Trusted w) ∧ ∀ x ∈ d.2, x.Trusted w) : (declare l).Trusted w := by
  induction l with
  | nil => trivial
  | cons d l ih =>
    obtain ⟨hbind, hinit⟩ := h d (by simp)
    have hrest := ih fun d hd => h d (by simp [hd])
    obtain ⟨bind, init⟩ := d
    cases init with
    | none => exact (trusted_pure _).bind fun v _ => (hbind v).bind fun _ _ => hrest
    | some x => exact (trusted_valueOf (hinit x rfl)).bind fun v _ => (hbind v).bind fun _ _ => hrest

end Statements

/-! ## 2. Expressions -/

section Expressions

/-- A list of arguments or other parts, each with some mark. -/
@[simp] theorem trusted_arguments {l : List (Eval Completion × Bool)} (h : ∀ x ∈ l, x.1.Trusted w)
    (acc : Array Value) : (arguments l acc).Trusted w := by
  induction l generalizing acc with
  | nil => trivial
  | cons x l ih =>
    obtain ⟨x, spread⟩ := x
    have hx : x.Trusted w := h _ (List.mem_cons_self ..)
    have hrest := ih fun y hy => h y (List.mem_cons_of_mem _ hy)
    cases spread with
    | false => exact (trusted_valueOf hx).bind fun v _ => hrest _
    | true =>
      exact (trusted_valueOf hx).bind fun v _ => (trusted_display v).bind fun _ _ =>
        (trusted_iterate _ _).bind fun _ _ => hrest _

theorem trusted_arrayElements {l : List (Option (Eval Completion × Option String))}
    (h : ∀ x ∈ l, ∀ y ∈ x, y.1.Trusted w) (acc : Array Value) : (arrayElements l acc).Trusted w := by
  induction l generalizing acc with
  | nil => trivial
  | cons x l ih =>
    have hrest : ∀ acc, (arrayElements l acc).Trusted w := ih fun x hx => h x (by simp [hx])
    cases x with
    | none => exact hrest _
    | some x =>
      obtain ⟨x, label⟩ := x
      have hx : x.Trusted w := h _ (List.mem_cons_self ..) _ rfl
      cases label with
      | none => exact (trusted_valueOf hx).bind fun v _ => hrest _
      | some label => exact (trusted_valueOf hx).bind fun v _ => (trusted_iterate _ _).bind fun _ _ => hrest _

theorem trusted_arrayLiteral {l : List (Option (Eval Completion × Option String))}
    (h : ∀ x ∈ l, ∀ y ∈ x, y.1.Trusted w) : (arrayLiteral l).Trusted w := by
  have helements := trusted_arrayElements h #[]
  unfold arrayLiteral
  simp [*]

/-- The parts of an object literal write to the new object only. -/
theorem trusted_objectLiteral {parts : List (ObjectId → Eval Unit)}
    (h : ∀ part ∈ parts, ∀ id, w.Free id → (part id).Trusted w) : (objectLiteral parts).Trusted w := by
  refine trusted_newPlain.bind fun id hid => ?_
  have hparts : (parts.forM fun part => part id).Trusted w :=
    trusted_forM fun part hpart => h part hpart id (yields_newPlain hid)
  exact hparts.bind fun _ _ => trivial

theorem trusted_addValue {value : Eval Completion} (hk : key.Trusted w) (hv : value.Trusted w) (hid : w.Free id) :
    (addValue key value id).Trusted w := by
  unfold addValue
  simp [*]

theorem trusted_addGetter {function : Eval Completion} (hk : key.Trusted w) (hf : function.Trusted w) (hid : w.Free id)
    : (addGetter key function id).Trusted w := by
  unfold addGetter
  simp [*]

theorem trusted_addSetter {function : Eval Completion} (hk : key.Trusted w) (hf : function.Trusted w) (hid : w.Free id)
    : (addSetter key function id).Trusted w := by
  unfold addSetter
  simp [*]

theorem trusted_addSpread {source : Eval Completion} (hs : source.Trusted w) (hid : w.Free id) :
    (addSpread source id).Trusted w := by
  unfold addSpread
  simp [*]

@[simp] theorem trusted_functionValue (template : Template) : (functionValue template).Trusted w := by
  unfold functionValue
  simp

@[simp] theorem trusted_this : this.Trusted w := by
  unfold this
  simp

theorem trusted_templateText (h : ∀ x ∈ l, x.Trusted w) (texts : List String) (acc : String) :
    (templateText texts l acc).Trusted w := by
  induction texts generalizing l acc with
  | nil => trivial
  | cons text texts ih =>
    cases l with
    | nil => exact ih h _
    | cons x l =>
      unfold templateText
      simp +contextual [*]

theorem trusted_computedKey (hx : x.Trusted w) : (computedKey x).Trusted w := by
  unfold computedKey
  simp [*]

theorem trusted_memberLink {object : Eval (Option Reference)} (ho : object.Trusted w) (hk : key.Trusted w)
    (position : Option Position) (optional : Bool) :
    (memberLink position object key optional).Trusted w := by
  refine (trusted_tick position).bind fun _ _ => ho.bind fun target _ => ?_
  split <;> simp +contextual [*]

theorem trusted_superMemberLink (hk : key.Trusted w) (position : Option Position) :
    (superMemberLink position key).Trusted w := by
  unfold superMemberLink
  simp [*]

theorem trusted_superCallLink (ha : ∀ x ∈ args, x.1.Trusted w) (position : Option Position) :
    (superCallLink position args).Trusted w := by
  refine (trusted_tick position).bind fun _ _ => (trusted_readName _ _).bind fun parent _ => ?_
  have hargs := trusted_arguments ha #[]
  split <;> simp +contextual [*]

@[simp] theorem trusted_callValue (function receiver : Value) (values : Array Value) (label : String)
    (position : Option Position) : (callValue function receiver values label position).Trusted w := by
  unfold callValue
  simp

@[simp] theorem trusted_evalByName (scope : ScopeKind) (values : Array Value) :
    (evalByName scope values).Trusted w := by
  unfold evalByName
  split <;> simp

@[simp] theorem trusted_isEvalText (v : Value) : (isEvalText v).Trusted w := by
  refine (trusted_callable? v).bind fun c _ => ?_
  split <;> trivial

theorem trusted_callNameLink (ha : ∀ x ∈ args, x.1.Trusted w) (position : Option Position) (name : String)
    (optional : Bool) (label : String) :
    (callNameLink position name args optional label).Trusted w := by
  refine (trusted_tick position).bind fun _ _ => (trusted_resolveValue _ _).bind fun found _ => ?_
  have hargs := trusted_arguments ha #[]
  obtain ⟨scope, function⟩ := found
  dsimp only
  split
  · trivial
  · refine hargs.bind fun values _ => (trusted_scopeAt scope).bind fun s _ => ?_
    simp

theorem trusted_callLink {callee : Eval (Option Reference)} (hc : callee.Trusted w) (ha : ∀ x ∈ args, x.1.Trusted w)
    (position : Option Position) (optional : Bool) (label : String) :
    (callLink position callee args optional label).Trusted w := by
  refine (trusted_tick position).bind fun _ _ => hc.bind fun target _ => ?_
  have hargs := trusted_arguments ha #[]
  split <;> simp +contextual [*]

theorem trusted_chain {link : Eval (Option Reference)} (h : link.Trusted w) : (chain link).Trusted w := by
  refine h.bind fun r _ => ?_
  cases r <;> trivial

theorem trusted_constructValue {callee : Eval Completion} (hc : callee.Trusted w) (ha : ∀ x ∈ args, x.1.Trusted w)
    (label : String) (position : Option Position) :
    (constructValue callee args label position).Trusted w := by
  unfold constructValue
  simp +contextual [*]

@[simp] theorem trusted_values (h : ∀ x ∈ l, x.Trusted w) (acc : Array Value) : (values l acc).Trusted w := by
  induction l generalizing acc with
  | nil => trivial
  | cons x l ih =>
    unfold values
    simp +contextual [*]

theorem trusted_taggedTemplate {tag : Eval (Option Reference)} {expressions : List (Eval Completion)}
    (ht : tag.Trusted w) (he : ∀ x ∈ expressions, x.Trusted w) (cooked raw : List Value) (label : String)
    (position : Option Position) : (taggedTemplate tag cooked raw expressions label position).Trusted w := by
  refine ht.bind fun target _ => (trusted_newArray _).bind fun written _ => ?_
  simp +contextual [*]

/-! ### Assignments -/

@[simp] theorem trusted_updateName (name : String) (delta : Float) (isPrefix : Bool)
    (position : Option Position) : (updateName name delta isPrefix position).Trusted w := by
  unfold updateName
  simp

theorem trusted_updateMember (ho : object.Trusted w) (hk : key.Trusted w) (delta : Float) (isPrefix : Bool)
    (position : Option Position) :
    (updateMember object key delta isPrefix position).Trusted w := by
  unfold updateMember
  simp [*]

@[simp] theorem trusted_assignedValue (hx : x.Trusted w) (operator : AssignmentOperator) (current : Value) :
    (assignedValue operator current x).Trusted w := by
  unfold assignedValue
  repeat' split
  all_goals simp +contextual [*]

@[simp] theorem trusted_assignBy {current : Eval Value} {write : Value → Eval Unit} (hc : current.Trusted w)
    (hwrite : ∀ v, (write v).Trusted w) (hx : x.Trusted w) (operator : AssignmentOperator) :
    (assignBy operator current write x).Trusted w := by
  unfold assignBy
  have hassigned := fun old => trusted_assignedValue hx operator old
  split
  · refine hc.bind fun old _ => (hassigned old).bind fun v _ => ?_
    cases v with
    | none => trivial
    | some v => exact (hwrite v).bind fun _ _ => trivial
  · exact (trusted_valueOf hx).bind fun v _ => (hwrite v).bind fun _ _ => trivial

theorem trusted_assignNameBy (hx : x.Trusted w) (operator : AssignmentOperator) (name : String)
    (position : Option Position) : (assignNameBy operator name x position).Trusted w := by
  unfold assignNameBy
  simp [*]

theorem trusted_assignMemberBy (ho : object.Trusted w) (hk : key.Trusted w) (hx : x.Trusted w)
    (operator : AssignmentOperator) (position : Option Position) :
    (assignMemberBy operator object key x position).Trusted w := by
  unfold assignMemberBy
  simp [*]

theorem trusted_assignPattern (hb : ∀ v, (bind v).Trusted w) (hx : x.Trusted w) : (assignPattern bind x).Trusted w := by
  unfold assignPattern
  simp [*]

theorem trusted_logical {left right : Eval Completion} (hl : left.Trusted w) (hr : right.Trusted w)
    (operator : LogicalOperator) : (logical operator left right).Trusted w := by
  unfold logical
  simp [*]

end Expressions

/-! ## 3. Patterns -/

section Patterns

theorem trusted_bindName (mode : BindingMode) (name : String) (position : Option Position) (v : Value) :
    (bindName mode name position v).Trusted w := by
  unfold bindName
  split <;> simp

theorem trusted_bindMember (ho : object.Trusted w) (hk : key.Trusted w) (v : Value) :
    (bindMember object key v).Trusted w := by
  unfold bindMember
  simp [*]

theorem trusted_bindDefault {default : Eval Completion} (hb : ∀ v, (bind v).Trusted w) (hd : default.Trusted w)
    (v : Value) :
    (bindDefault bind default v).Trusted w := by
  unfold bindDefault
  simp [*]

@[simp] theorem trusted_restObject (source : Value) (used : List Key) : (restObject source used).Trusted w := by
  refine trusted_newPlain.bind fun rest hrest => ?_
  have hfree := yields_newPlain hrest
  cases source with
  | object id =>
    refine (trusted_read _).bind fun names _ => (trusted_forM fun name _ => ?_).bind fun _ _ => trivial
    split
    · trivial
    · exact (trusted_getNamed _ _).bind fun _ _ => hfree
  | _ => trivial

/-- The actions of a part of an object pattern. -/
def TrustedPart (w : Watch) : PartAction → Prop
  | .property key bind => key.Trusted w ∧ ∀ v, (bind v).Trusted w
  | .rest bind => ∀ v, (bind v).Trusted w

theorem trusted_bindParts {l : List PartAction} (h : ∀ part ∈ l, TrustedPart w part) (source : Value)
    (used : List Key) : (bindParts source l used).Trusted w := by
  induction l generalizing used with
  | nil => trivial
  | cons part l ih =>
    have hrest : ∀ used, (bindParts source l used).Trusted w := ih fun part hpart => h part (by simp [hpart])
    have hpart := h part (List.mem_cons_self ..)
    cases part with
    | property key bind =>
      obtain ⟨hkey, hbind⟩ := hpart
      exact hkey.bind fun key _ => (trusted_get _ _).bind fun v _ => (hbind v).bind fun _ _ => hrest _
    | rest bind =>
      exact (trusted_restObject _ _).bind fun id _ => (hpart _).bind fun _ _ => hrest _

theorem trusted_bindObject {l : List PartAction} (h : ∀ part ∈ l, TrustedPart w part) (label : String)
    (v : Value) : (bindObject l label v).Trusted w := by
  have hparts := trusted_bindParts h v []
  unfold bindObject
  simp [*]

theorem trusted_bindElements {l : List (Option ((Value → Eval Unit) × Bool))}
    (h : ∀ x ∈ l, ∀ y ∈ x, ∀ v, (y.1 v).Trusted w) (items : Array Value) (i : Nat) :
    (bindElements items l i).Trusted w := by
  induction l generalizing i with
  | nil => trivial
  | cons x l ih =>
    have hrest : ∀ i, (bindElements items l i).Trusted w := ih fun x hx => h x (by simp [hx])
    cases x with
    | none => exact hrest _
    | some x =>
      obtain ⟨bind, takesRest⟩ := x
      have hbind : ∀ v, (bind v).Trusted w := h _ (List.mem_cons_self ..) _ rfl
      unfold bindElements
      simp [*]

theorem trusted_bindArray {l : List (Option ((Value → Eval Unit) × Bool))}
    (h : ∀ x ∈ l, ∀ y ∈ x, ∀ v, (y.1 v).Trusted w) (label : String) (v : Value) :
    (bindArray l label v).Trusted w :=
  (trusted_iterate v label).bind fun items _ => trusted_bindElements h items 0

end Patterns

/-! ## 4. Classes -/

section Classes

@[simp] theorem trusted_classParent {parent : Option (Eval Completion)} (h : ∀ x ∈ parent, x.Trusted w) :
    (classParent parent).Trusted w := by
  cases parent with
  | none => trivial
  | some x =>
    refine (trusted_valueOf (h x rfl)).bind fun v _ => ?_
    split
    · trivial
    · refine (trusted_isConstructor v).bind fun isTarget _ => ?_
      split
      · cases v with
        | object id =>
          refine (trusted_object id).bind fun o _ => ?_
          split <;> trivial
        | _ => trivial
      · simp

@[simp] theorem trusted_classScope (binding : Option String) : (classScope binding).Trusted w := by
  unfold classScope
  split <;> simp

@[simp] theorem trusted_classConstructor (template : Option Template) (parent : Option ObjectId)
    (scope : ScopeId) : (classConstructor template parent scope).Trusted w := by
  cases template with
  | none => trivial
  | some t =>
    cases parent with
    | none => exact (trusted_newFunction _).bind fun _ _ => trivial
    | some p =>
      refine (trusted_newFrame _ _ _).bind fun prelude _ => ?_
      exact (trusted_initializeIn _ _ _).bind fun _ _ => (trusted_newFunction _).bind fun _ _ => trivial

/-- The actions of a member of a class. -/
def TrustedMember (w : Watch) : MemberAction → Prop
  | .method key _ _ => key.Trusted w
  | .accessor _ => True
  | .field key _ _ => key.Trusted w
  | .staticField key init => key.Trusted w ∧ ∀ x ∈ init, x.Trusted w

theorem trusted_classMembers {l : List MemberAction} (h : ∀ member ∈ l, TrustedMember w member)
    (scope : ScopeId) (position : Option Position) (acc : ClassMembers) :
    (classMembers scope position l acc).Trusted w := by
  induction l generalizing acc with
  | nil => trivial
  | cons member l ih =>
    have hrest : ∀ acc, (classMembers scope position l acc).Trusted w :=
      ih fun member hmember => h member (by simp [hmember])
    have hmember := h member (List.mem_cons_self ..)
    cases member with
    | accessor isGetter => exact trusted_raise _ _ _
    | method key template isStatic =>
      exact Trusted.bind hmember fun key _ => (trusted_newFunction _).bind fun id _ => hrest _
    | field key init isArrow => exact Trusted.bind hmember fun key _ => hrest _
    | staticField key init => exact Trusted.bind hmember.1 fun key _ => hrest _

/-- Static fields are written to the class itself. -/
theorem trusted_staticFields {l : List (Key × Option (Eval Completion))} (h : ∀ field ∈ l, ∀ x ∈ field.2, x.Trusted w)
    (hid : w.Free id) (scope : ScopeId) :
    (staticFields scope id l).Trusted w := by
  induction l with
  | nil => trivial
  | cons field l ih =>
    have hrest := ih fun field hfield => h field (by simp [hfield])
    have hinit := h field (List.mem_cons_self ..)
    obtain ⟨key, init⟩ := field
    have hdefine : ∀ v, (do discard <| defineOwn id key (.ordinary v); staticFields scope id l).Trusted w := by
      intro v
      simp [*]
    cases init with
    | none => exact (trusted_pure _).bind fun v _ => hdefine v
    | some x =>
      have hx : (inFrame scope (.object id) (valueOf x)).Trusted w := trusted_valueOf (hinit x rfl)
      exact hx.bind fun v _ => hdefine v

/-- What a class is made from. -/
structure TrustedClass (c : ClassAction) (w : Watch) : Prop where
  parent : ∀ x ∈ c.parent, x.Trusted w
  members : ∀ member ∈ c.members, TrustedMember w member

/-- Making a class writes to the new class and its new prototype only. -/
theorem trusted_defineClass {c : ClassAction} (h : TrustedClass c w) : (defineClass c).Trusted w := by
  have hstatic : ∀ keys : List Key, ∀ field ∈ keys.zip (c.members.filterMap MemberAction.staticInit?),
      ∀ x ∈ field.2, x.Trusted w := by
    intro keys field hfield x hx
    obtain ⟨member, hmember, hinit⟩ := List.mem_filterMap.mp (List.of_mem_zip hfield).2
    have htrusted := h.members member hmember
    cases member with
    | staticField key init =>
      obtain rfl : init = field.2 := by simpa [MemberAction.staticInit?] using hinit
      exact htrusted.2 x hx
    | method | accessor | field => cases hinit
  refine (trusted_classParent h.parent).bind fun parent _ => ?_
  refine (trusted_newObject _).bind fun prototype hprototype => ?_
  refine (trusted_classScope _).bind fun scope _ => (trusted_classConstructor _ _ _).bind fun constructor _ => ?_
  refine (trusted_classMembers h.members _ _ _).bind fun members _ => ?_
  refine (trusted_allocate _).bind fun id hid => ?_
  have hprototype := yields_newObject hprototype
  have hmethods : ∀ entry : Key × ObjectId × Bool, w.Free (if entry.2.2 then id else prototype) := by
    intro entry
    split <;> assumption
  refine Trusted.bind hprototype fun _ _ => (trusted_forM fun entry _ => ?_).bind fun _ _ => ?_
  · exact (trusted_discard _).mpr (hmethods entry)
  · have hfields := trusted_staticFields (hstatic members.staticKeys) hid scope
    split
    · exact (trusted_initializeIn _ _ _).bind fun _ _ => hfields.bind fun _ _ => trivial
    · exact hfields.bind fun _ _ => trivial

theorem trusted_classDeclaration (hn : w.notes = true) {c : ClassAction} (h : TrustedClass c w)
    (position : Option Position) : (classDeclaration c position).Trusted w := by
  refine (trusted_defineClass h).bind fun id _ => ?_
  have hnote : ∀ v : Value, (do noteResult v; pure (Completion.value v)).Trusted w :=
    fun v => (trusted_noteResult hn v).bind fun _ _ => trivial
  dsimp only
  split
  · exact (trusted_initializeName _ _ _).bind fun _ _ => hnote _
  · exact hnote _

end Classes

/-! ## 5. Regular expressions -/

@[simp] theorem trusted_makeRegex (source flags : String) : (makeRegex source flags).Trusted w := by
  unfold makeRegex
  split <;> simp

@[simp] theorem trusted_newRegex (source flags : String) : (newRegex source flags).Trusted w := by
  unfold newRegex
  simp

end Eval

/-! ## 6. All code -/

section

open Eval

variable {w : Watch}

mutual

/-- **All code is trusted**, wherever a result may be noted. -/
theorem Code.trusted_exec (hn : w.notes = true) : (c : Code) → c.exec.Trusted w
  | .step position code =>
    trusted_step (code.trusted_exec hn) position
  | .sequence statements =>
    trusted_sequence (Code.trusted_execAll hn statements) _
  | .expression code =>
    trusted_expressionStatement hn (code.trusted_exec hn)
  | .block frame functions body =>
    trusted_block (body.trusted_exec hn) frame functions
  | .empty => trivial
  | .withObject object body =>
    trusted_withObject (object.trusted_exec hn) (body.trusted_exec hn)
  | .exit argument => trusted_exit (Code.trusted_exec? hn argument)
  | .labeled label body => trusted_labeled (body.trusted_exec hn) label
  | .jumpOut label => trivial
  | .jumpOn label => trivial
  | .branch test consequent alternate => by
    refine trusted_branch (test.trusted_exec hn) (consequent.trusted_exec hn) ?_
    have halternate := Code.trusted_exec? hn alternate
    cases h : Code.exec? alternate with
    | none => trivial
    | some x => exact halternate x h
  | .switch discriminant frame functions tests bodies =>
    trusted_switch (discriminant.trusted_exec hn) (Code.trusted_execAll hn tests)
      (Code.trusted_execAll hn bodies) frame functions
  | .defaultCase => trivial
  | .throw argument =>
    (trusted_valueOf (argument.trusted_exec hn)).bind fun _ _ => trivial
  | .attempt block handler finalizer =>
    trusted_attempt (block.trusted_exec hn) (Code.trusted_handler? hn handler)
      (Code.trusted_exec? hn finalizer)
  | .whileLoop labels test body =>
    trusted_whileLoop (test.trusted_exec hn) (body.trusted_exec hn) labels
  | .doLoop labels body test =>
    trusted_doLoop (body.trusted_exec hn) (test.trusted_exec hn) labels
  | .forLoop labels frame init test next body =>
    trusted_forLoop (Code.trusted_exec? hn init) (Code.trusted_exec? hn test)
      (Code.trusted_exec? hn next) (body.trusted_exec hn) labels frame
  | .forIn labels target frame object body =>
    trusted_forIn (object.trusted_exec hn) (target.trusted_bind hn) (body.trusted_exec hn) labels frame
  | .declare bindings => trusted_declare (Code.trusted_bindings hn bindings)
  | .classDeclaration template position =>
    trusted_classDeclaration hn (template.trusted_action hn) position
  | .identifier name position =>
    (trusted_readName name position).bind fun _ _ => trivial
  | .constant value => trivial
  | .regex pattern flags =>
    (trusted_newRegex pattern flags).bind fun _ _ => trivial
  | .this => trusted_this
  | .array elements => trusted_arrayLiteral (Code.trusted_elements hn elements)
  | .object parts => trusted_objectLiteral (ObjectPart.trusted_addAll hn parts)
  | .function template => trusted_functionValue template
  | .classValue template =>
    (trusted_defineClass (template.trusted_action hn)).bind fun _ _ => trivial
  | .unary operator argument position => by
    refine (trusted_valueOf (argument.trusted_exec hn)).bind fun v _ => ?_
    exact (trusted_unary operator v position).bind fun _ _ => trivial
  | .typeOfName name position => by
    refine (trusted_readNameOrUndefined name position).bind fun v _ => ?_
    exact (trusted_typeName v).bind fun _ _ => trivial
  | .deleteMember object key => by
    refine (trusted_valueOf (object.trusted_exec hn)).bind fun target _ => ?_
    exact (key.trusted_eval hn).bind fun key _ => (trusted_deleteProperty _ _).bind fun _ _ => trivial
  | .updateName name delta isPrefix position => trusted_updateName _ _ _ _
  | .updateMember object key delta isPrefix position =>
    trusted_updateMember (object.trusted_exec hn) (key.trusted_eval hn) _ _ _
  | .binary operator left right => by
    refine (trusted_valueOf (left.trusted_exec hn)).bind fun l _ => ?_
    refine (trusted_valueOf (right.trusted_exec hn)).bind fun r _ => ?_
    exact (trusted_binary operator l r).bind fun _ _ => trivial
  | .logical operator left right =>
    trusted_logical (left.trusted_exec hn) (right.trusted_exec hn) operator
  | .conditional test consequent alternate =>
    trusted_branch (test.trusted_exec hn) (consequent.trusted_exec hn) (alternate.trusted_exec hn)
  | .assignName operator name value position =>
    trusted_assignNameBy (value.trusted_exec hn) operator name position
  | .assignMember operator object key value position =>
    trusted_assignMemberBy (object.trusted_exec hn) (key.trusted_eval hn) (value.trusted_exec hn)
      operator position
  | .assignPattern pattern value =>
    trusted_assignPattern (pattern.trusted_bind hn) (value.trusted_exec hn)
  | .construct callee arguments label position =>
    trusted_constructValue (callee.trusted_exec hn) (Code.trusted_arguments hn arguments) label position
  | .comma expressions =>
    (trusted_values (Code.trusted_execAll hn expressions) #[]).bind fun _ _ => trivial
  | .template texts expressions =>
    (trusted_templateText (Code.trusted_execAll hn expressions) texts "").bind fun _ _ => trivial
  | .taggedTemplate tag cooked raw expressions label position =>
    trusted_taggedTemplate (tag.trusted_exec hn) (Code.trusted_execAll hn expressions) _ _ label position
  | .chain link => trusted_chain (link.trusted_exec hn)

theorem Code.trusted_execAll (hn : w.notes = true) : (l : List Code) → ∀ x ∈ Code.execAll l, x.Trusted w
  | [] => List.forall_mem_nil _
  | c :: rest =>
    List.forall_mem_cons.mpr ⟨c.trusted_exec hn, Code.trusted_execAll hn rest⟩

theorem Code.trusted_exec? (hn : w.notes = true) : (c : Option Code) → ∀ x ∈ Code.exec? c, x.Trusted w
  | none => nofun
  | some c => by
    rintro x ⟨⟩
    exact c.trusted_exec hn

theorem Code.trusted_handler? (hn : w.notes = true) :
    (handler : Option (Option Pattern × Code)) → TrustedHandler (Code.handler? handler) w
  | none => nofun
  | some (none, body) => by
    rintro h ⟨⟩
    exact ⟨by simp, body.trusted_exec hn⟩
  | some (some pattern, body) => by
    rintro h ⟨⟩
    refine ⟨?_, body.trusted_exec hn⟩
    rintro bind ⟨⟩
    exact pattern.trusted_bind hn

theorem Code.trusted_bindings (hn : w.notes = true) : (l : List (Pattern × Option Code)) →
    ∀ d ∈ Code.bindings l, (∀ v, (d.1 v).Trusted w) ∧ ∀ x ∈ d.2, x.Trusted w
  | [] => List.forall_mem_nil _
  | (pattern, init) :: rest =>
    List.forall_mem_cons.mpr
      ⟨⟨pattern.trusted_bind hn, Code.trusted_exec? hn init⟩, Code.trusted_bindings hn rest⟩

theorem Code.trusted_elements (hn : w.notes = true) : (l : List (Option (Code × Option String))) →
    ∀ x ∈ Code.elements l, ∀ y ∈ x, y.1.Trusted w
  | [] => List.forall_mem_nil _
  | none :: rest =>
    List.forall_mem_cons.mpr ⟨by simp, Code.trusted_elements hn rest⟩
  | some (c, label) :: rest => by
    refine List.forall_mem_cons.mpr ⟨?_, Code.trusted_elements hn rest⟩
    rintro y ⟨⟩
    exact c.trusted_exec hn

theorem Code.trusted_arguments (hn : w.notes = true) : (l : List (Code × Bool)) →
    ∀ x ∈ Code.arguments l, x.1.Trusted w
  | [] => List.forall_mem_nil _
  | (c, _) :: rest =>
    List.forall_mem_cons.mpr ⟨c.trusted_exec hn, Code.trusted_arguments hn rest⟩

theorem Link.trusted_exec (hn : w.notes = true) : (link : Link) → link.exec.Trusted w
  | .step position link => trusted_step (link.trusted_exec hn) position
  | .member position object key optional =>
    trusted_memberLink (object.trusted_exec hn) (key.trusted_eval hn) position optional
  | .superMember position key =>
    trusted_superMemberLink (key.trusted_eval hn) position
  | .superCall position arguments =>
    trusted_superCallLink (Code.trusted_arguments hn arguments) position
  | .callName position name arguments optional label =>
    trusted_callNameLink (Code.trusted_arguments hn arguments) position name optional label
  | .call position callee arguments optional label =>
    trusted_callLink (callee.trusted_exec hn) (Code.trusted_arguments hn arguments) position optional label
  | .value code =>
    (trusted_valueOf (code.trusted_exec hn)).bind fun _ _ => trivial

theorem PropertyName.trusted_eval (hn : w.notes = true) : (key : PropertyName) → key.eval.Trusted w
  | .fixed _ => trivial
  | .computed code => trusted_computedKey (code.trusted_exec hn)

theorem ObjectPart.trusted_add (hn : w.notes = true) :
    (part : ObjectPart) → ∀ id, w.Free id → (part.add id).Trusted w
  | .value key value =>
    fun _ hid => trusted_addValue (key.trusted_eval hn) (value.trusted_exec hn) hid
  | .getter key function =>
    fun _ hid => trusted_addGetter (key.trusted_eval hn) (function.trusted_exec hn) hid
  | .setter key function =>
    fun _ hid => trusted_addSetter (key.trusted_eval hn) (function.trusted_exec hn) hid
  | .spread source =>
    fun _ hid => trusted_addSpread (source.trusted_exec hn) hid
  | .ignored value =>
    fun _ _ => (trusted_discard _).mpr (value.trusted_exec hn)

theorem ObjectPart.trusted_addAll (hn : w.notes = true) : (parts : List ObjectPart) →
    ∀ part ∈ ObjectPart.addAll parts, ∀ id, w.Free id → (part id).Trusted w
  | [] => List.forall_mem_nil _
  | part :: rest =>
    List.forall_mem_cons.mpr ⟨part.trusted_add hn, ObjectPart.trusted_addAll hn rest⟩

theorem Pattern.trusted_bind (hn : w.notes = true) : (pattern : Pattern) → ∀ v, (pattern.bind v).Trusted w
  | .name mode name position => trusted_bindName mode name position
  | .member object key =>
    trusted_bindMember (object.trusted_exec hn) (key.trusted_eval hn)
  | .withDefault inner default =>
    trusted_bindDefault (inner.trusted_bind hn) (default.trusted_exec hn)
  | .object parts label =>
    trusted_bindObject (PatternPart.trusted_actions hn parts) label
  | .array elements label =>
    trusted_bindArray (Pattern.trusted_elements hn elements) label

theorem Pattern.trusted_elements (hn : w.notes = true) : (l : List (Option (Pattern × Bool))) →
    ∀ x ∈ Pattern.elements l, ∀ y ∈ x, ∀ v, (y.1 v).Trusted w
  | [] => List.forall_mem_nil _
  | none :: rest =>
    List.forall_mem_cons.mpr ⟨by simp, Pattern.trusted_elements hn rest⟩
  | some (pattern, takesRest) :: rest => by
    refine List.forall_mem_cons.mpr ⟨?_, Pattern.trusted_elements hn rest⟩
    rintro y ⟨⟩
    exact pattern.trusted_bind hn

theorem PatternPart.trusted_actions (hn : w.notes = true) : (parts : List PatternPart) →
    ∀ part ∈ PatternPart.actions parts, TrustedPart w part
  | [] => List.forall_mem_nil _
  | .property key pattern :: rest =>
    List.forall_mem_cons.mpr
      ⟨⟨key.trusted_eval hn, pattern.trusted_bind hn⟩, PatternPart.trusted_actions hn rest⟩
  | .rest pattern :: rest =>
    List.forall_mem_cons.mpr ⟨pattern.trusted_bind hn, PatternPart.trusted_actions hn rest⟩

theorem ClassTemplate.trusted_action (hn : w.notes = true) :
    (template : ClassTemplate) → TrustedClass template.action w
  | .mk _ _ parent _ members _ _ =>
    ⟨Code.trusted_exec? hn parent, ClassMember.trusted_actions hn members⟩

theorem ClassMember.trusted_actions (hn : w.notes = true) : (members : List ClassMember) →
    ∀ member ∈ ClassMember.actions members, TrustedMember w member
  | [] => List.forall_mem_nil _
  | .method key _ _ :: rest =>
    List.forall_mem_cons.mpr ⟨key.trusted_eval hn, ClassMember.trusted_actions hn rest⟩
  | .accessor _ :: rest =>
    List.forall_mem_cons.mpr ⟨trivial, ClassMember.trusted_actions hn rest⟩
  | .field key _ _ false :: rest =>
    List.forall_mem_cons.mpr ⟨key.trusted_eval hn, ClassMember.trusted_actions hn rest⟩
  | .field key init _ true :: rest =>
    List.forall_mem_cons.mpr
      ⟨⟨key.trusted_eval hn, Code.trusted_exec? hn init⟩, ClassMember.trusted_actions hn rest⟩

end

end

end GuestScript
