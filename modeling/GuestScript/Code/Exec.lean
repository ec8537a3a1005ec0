import GuestScript.Machine.ClassDefinition
import GuestScript.Machine.Regex

/-!
# Running code

`Code.exec` gives every piece of code its action, by recursion on the code: the action of a construct is put
together from the actions of its parts. Nothing here looks into functions, which are run when they are called.
-/

namespace GuestScript

mutual

/-- The action of a piece of code. -/
def Code.exec : Code → Eval Completion
  | .step position code => Eval.step position code.exec
  | .sequence statements => Eval.sequence (Code.execAll statements) .empty
  | .expression code => Eval.expressionStatement code.exec
  | .block frame functions body => Eval.block frame functions body.exec
  | .empty => pure .empty
  | .withObject object body => Eval.withObject object.exec body.exec
  | .exit argument => Eval.exit (Code.exec? argument)
  | .labeled label body => Eval.labeled label body.exec
  | .jumpOut label => pure (.jumpOut label)
  | .jumpOn label => pure (.jumpOn label)
  | .branch test consequent alternate =>
    Eval.branch test.exec consequent.exec ((Code.exec? alternate).getD (pure .empty))
  | .switch discriminant frame functions tests bodies =>
    Eval.switch discriminant.exec frame functions (Code.execAll tests) (Code.execAll bodies)
  | .defaultCase => pure .defaultCase
  | .throw argument => do Eval.throwValue (← Eval.valueOf argument.exec)
  | .attempt block handler finalizer =>
    Eval.attempt block.exec (Code.handler? handler) (Code.exec? finalizer)
  | .whileLoop labels test body => Eval.whileLoop labels test.exec body.exec
  | .doLoop labels body test => Eval.doLoop labels body.exec test.exec
  | .forLoop labels frame init test update body =>
    Eval.forLoop labels frame (Code.exec? init) (Code.exec? test) (Code.exec? update) body.exec
  | .forIn labels target frame object body =>
    Eval.forIn labels object.exec target.bind frame body.exec
  | .declare bindings => Eval.declare (Code.bindings bindings)
  | .classDeclaration template position => Eval.classDeclaration template.action position
  | .identifier name position => return .value (← Eval.readName name position)
  | .constant literal => pure (.value literal.value)
  | .regex pattern flags => return .value (← Eval.newRegex pattern flags)
  | .this => Eval.this
  | .array elements => Eval.arrayLiteral (Code.elements elements)
  | .object parts => Eval.objectLiteral (ObjectPart.addAll parts)
  | .function template => Eval.functionValue template
  | .classValue template => return .value (.object (← Eval.defineClass template.action))
  | .unary operator argument position => do
    let v ← Eval.valueOf argument.exec
    return .value (← Eval.unary operator v position)
  | .typeOfName name position => do
    let v ← Eval.readNameOrUndefined name position
    return .value (.string (← Eval.typeName v))
  | .deleteMember object key => do
    let target ← Eval.valueOf object.exec
    let key ← key.eval
    return .value (.boolean (← Eval.deleteProperty target key))
  | .updateName name delta isPrefix position => Eval.updateName name delta isPrefix position
  | .updateMember object key delta isPrefix position =>
    Eval.updateMember object.exec key.eval delta isPrefix position
  | .binary operator left right => do
    let l ← Eval.valueOf left.exec
    let r ← Eval.valueOf right.exec
    return .value (← Eval.binary operator l r)
  | .logical operator left right => Eval.logical operator left.exec right.exec
  | .conditional test consequent alternate => Eval.branch test.exec consequent.exec alternate.exec
  | .assignName operator name value position => Eval.assignNameBy operator name value.exec position
  | .assignMember operator object key value position =>
    Eval.assignMemberBy operator object.exec key.eval value.exec position
  | .assignPattern pattern value => Eval.assignPattern pattern.bind value.exec
  | .construct callee arguments label position =>
    Eval.constructValue callee.exec (Code.arguments arguments) label position
  | .comma expressions => do
    let all ← Eval.values (Code.execAll expressions) #[]
    pure (.value (all.back?.getD .undefined))
  | .template texts expressions =>
    return .value (.string (← Eval.templateText texts (Code.execAll expressions) ""))
  | .taggedTemplate tag cooked raw expressions label position =>
    Eval.taggedTemplate tag.exec (cooked.map Literal.value) (raw.map Literal.value)
      (Code.execAll expressions) label position
  | .chain link => Eval.chain link.exec

def Code.execAll : List Code → List (Eval Completion)
  | [] => []
  | c :: rest => c.exec :: Code.execAll rest

/-- The action of code that may be absent. -/
def Code.exec? : Option Code → Option (Eval Completion)
  | none => none
  | some c => some c.exec

/-- The actions of the handler of a try statement. -/
def Code.handler? : Option (Option Pattern × Code) →
    Option (Option (Value → Eval Unit) × Eval Completion)
  | none => none
  | some (none, body) => some (none, body.exec)
  | some (some pattern, body) => some (some pattern.bind, body.exec)

/-- The actions of a declaration. -/
def Code.bindings : List (Pattern × Option Code) →
    List ((Value → Eval Unit) × Option (Eval Completion))
  | [] => []
  | (pattern, init) :: rest => (pattern.bind, Code.exec? init) :: Code.bindings rest

/-- The actions of the elements of an array literal. -/
def Code.elements : List (Option (Code × Option String)) →
    List (Option (Eval Completion × Option String))
  | [] => []
  | none :: rest => none :: Code.elements rest
  | some (c, label) :: rest => some (c.exec, label) :: Code.elements rest

/-- The actions of arguments. -/
def Code.arguments : List (Code × Bool) → List (Eval Completion × Bool)
  | [] => []
  | (c, spread) :: rest => (c.exec, spread) :: Code.arguments rest

/-- The action of a part of a chain. -/
def Link.exec : Link → Eval (Option Reference)
  | .step position link => Eval.step position link.exec
  | .member position object key optional => Eval.memberLink position object.exec key.eval optional
  | .superMember position key => Eval.superMemberLink position key.eval
  | .superCall position arguments => Eval.superCallLink position (Code.arguments arguments)
  | .callName position name arguments optional label =>
    Eval.callNameLink position name (Code.arguments arguments) optional label
  | .call position callee arguments optional label =>
    Eval.callLink position callee.exec (Code.arguments arguments) optional label
  | .value code => return some ⟨.undefined, ← Eval.valueOf code.exec⟩

/-- The action that finds a property key. -/
def PropertyName.eval : PropertyName → Eval Key
  | .fixed name => pure (.string name)
  | .computed code => Eval.computedKey code.exec

/-- The action that adds a part of an object literal. -/
def ObjectPart.add : ObjectPart → ObjectId → Eval Unit
  | .value key value => Eval.addValue key.eval value.exec
  | .getter key function => Eval.addGetter key.eval function.exec
  | .setter key function => Eval.addSetter key.eval function.exec
  | .spread source => Eval.addSpread source.exec
  | .ignored value => fun _ => discard value.exec

/-- The actions that add the parts of an object literal. -/
def ObjectPart.addAll : List ObjectPart → List (ObjectId → Eval Unit)
  | [] => []
  | part :: rest => part.add :: ObjectPart.addAll rest

def Pattern.bind : Pattern → Value → Eval Unit
  | .name mode name position => Eval.bindName mode name position
  | .member object key => Eval.bindMember object.exec key.eval
  | .withDefault inner default => Eval.bindDefault inner.bind default.exec
  | .object parts label => Eval.bindObject (PatternPart.actions parts) label
  | .array elements label => Eval.bindArray (Pattern.elements elements) label

/-- The actions of the elements of an array pattern. -/
def Pattern.elements : List (Option (Pattern × Bool)) → List (Option ((Value → Eval Unit) × Bool))
  | [] => []
  | none :: rest => none :: Pattern.elements rest
  | some (p, takesRest) :: rest => some (p.bind, takesRest) :: Pattern.elements rest

def PatternPart.actions : List PatternPart → List PartAction
  | [] => []
  | .property key pattern :: rest => .property key.eval pattern.bind :: PatternPart.actions rest
  | .rest pattern :: rest => .rest pattern.bind :: PatternPart.actions rest

def ClassTemplate.action : ClassTemplate → ClassAction
  | .mk name binding parent constructor members source position =>
    { name := name
      binding := binding
      parent := Code.exec? parent
      constructor := constructor
      members := ClassMember.actions members
      source := source
      position := position }

def ClassMember.actions : List ClassMember → List MemberAction
  | [] => []
  | .method key template isStatic :: rest =>
    .method key.eval template isStatic :: ClassMember.actions rest
  | .accessor isGetter :: rest => .accessor isGetter :: ClassMember.actions rest
  | .field key init isArrow false :: rest =>
    .field key.eval init isArrow :: ClassMember.actions rest
  | .field key init _ true :: rest =>
    .staticField key.eval (Code.exec? init) :: ClassMember.actions rest

end

end GuestScript
