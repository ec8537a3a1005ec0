import GuestScript.Code.Lower.Tree

/-!
# Steady code

A loop that counts no step in a round could go on for ever. *Steady* code has no such loop: the body of each of its
loops begins with a step, or is a chain, which counts its steps itself. Code is *firm* if it is steady and its
declarations and assignments bind names in certain ways only; parameters and caught values are bound in their own way.
Both reach into the templates of functions and classes, which are code that is run later.

Code need not be firm, but the code of every tree is (`Program.firm_ofTree`): lowering puts a step in front of every
node that is no part of a chain, and it sets a name in the current scope itself for parameters and caught values only.
-/

namespace GuestScript

/-! ## 1. Firm code -/

mutual

/-- Whether a piece of code counts a step before anything else. -/
def Code.Counts : Code → Prop
  | .step _ _ => True
  | .chain link => link.Counts
  | _ => False

/-- Whether a part of a chain counts a step before anything else. -/
def Link.Counts : Link → Prop
  | .value code => code.Counts
  | _ => True

end

section

variable (Sets : BindingMode → Prop)

mutual

/-- Whether every loop in a piece of code counts a step in every round, and declarations and assignments bind names in
some ways only. -/
def Code.Firm : Code → Prop
  | .step _ code | .expression code | .throw code => code.Firm
  | .labeled _ body => body.Firm
  | .sequence statements | .comma statements => Code.AllFirm statements
  | .block _ functions body => Template.AllFirm functions ∧ body.Firm
  | .withObject object body => object.Firm ∧ body.Firm
  | .exit argument => Code.Firm? argument
  | .branch test consequent alternate => test.Firm ∧ consequent.Firm ∧ Code.Firm? alternate
  | .switch discriminant _ functions tests bodies =>
    discriminant.Firm ∧ Template.AllFirm functions ∧ Code.AllFirm tests ∧ Code.AllFirm bodies
  | .attempt block handler finalizer =>
    block.Firm ∧ Code.FirmHandler handler ∧ Code.Firm? finalizer
  | .whileLoop _ test body => test.Firm ∧ body.Firm ∧ body.Counts
  | .doLoop _ body test => body.Firm ∧ test.Firm ∧ body.Counts
  | .forLoop _ _ init test update body =>
    Code.Firm? init ∧ Code.Firm? test ∧ Code.Firm? update ∧ body.Firm ∧ body.Counts
  | .forIn _ target _ object body => target.Firm Sets ∧ object.Firm ∧ body.Firm
  | .declare bindings => Code.FirmBindings bindings
  | .classDeclaration template _ | .classValue template => template.Firm
  | .array elements => Code.FirmElements elements
  | .object parts => ObjectPart.AllFirm parts
  | .function template => template.Firm
  | .unary _ argument _ => argument.Firm
  | .deleteMember object key => object.Firm ∧ key.Firm
  | .updateMember object key _ _ _ => object.Firm ∧ key.Firm
  | .binary _ left right | .logical _ left right => left.Firm ∧ right.Firm
  | .conditional test consequent alternate => test.Firm ∧ consequent.Firm ∧ alternate.Firm
  | .assignName _ _ value _ => value.Firm
  | .assignMember _ object key value _ => object.Firm ∧ key.Firm ∧ value.Firm
  | .assignPattern pattern value => pattern.Firm Sets ∧ value.Firm
  | .construct callee arguments _ _ => callee.Firm ∧ Code.FirmArguments arguments
  | .template _ expressions => Code.AllFirm expressions
  | .taggedTemplate tag _ _ expressions _ _ => tag.Firm ∧ Code.AllFirm expressions
  | .chain link => link.Firm
  | .empty | .jumpOut _ | .jumpOn _ | .defaultCase | .identifier _ _ | .constant _ | .regex _ _ | .this
  | .typeOfName _ _ | .updateName _ _ _ _ => True

/-- Whether all code of a list is firm. -/
def Code.AllFirm : List Code → Prop
  | [] => True
  | c :: rest => c.Firm ∧ Code.AllFirm rest

/-- Whether code that may be absent is firm. -/
def Code.Firm? : Option Code → Prop
  | none => True
  | some c => c.Firm

/-- Whether the handler of a try statement is firm. -/
def Code.FirmHandler : Option (Option Pattern × Code) → Prop
  | none => True
  | some (none, body) => body.Firm
  | some (some pattern, body) => pattern.Firm (fun _ => True) ∧ body.Firm

/-- Whether a declaration is firm. -/
def Code.FirmBindings : List (Pattern × Option Code) → Prop
  | [] => True
  | (pattern, init) :: rest => pattern.Firm Sets ∧ Code.Firm? init ∧ Code.FirmBindings rest

/-- Whether the elements of an array literal are firm. -/
def Code.FirmElements : List (Option (Code × Option String)) → Prop
  | [] => True
  | none :: rest => Code.FirmElements rest
  | some (c, _) :: rest => c.Firm ∧ Code.FirmElements rest

/-- Whether arguments are firm. -/
def Code.FirmArguments : List (Code × Bool) → Prop
  | [] => True
  | (c, _) :: rest => c.Firm ∧ Code.FirmArguments rest

/-- Whether a part of a chain is firm. -/
def Link.Firm : Link → Prop
  | .step _ link => link.Firm
  | .member _ object key _ => object.Firm ∧ key.Firm
  | .superMember _ key => key.Firm
  | .superCall _ arguments | .callName _ _ arguments _ _ => Code.FirmArguments arguments
  | .call _ callee arguments _ _ => callee.Firm ∧ Code.FirmArguments arguments
  | .value code => code.Firm

/-- Whether a key is firm. -/
def PropertyName.Firm : PropertyName → Prop
  | .fixed _ => True
  | .computed code => code.Firm

/-- Whether a part of an object literal is firm. -/
def ObjectPart.Firm : ObjectPart → Prop
  | .value key value | .getter key value | .setter key value => key.Firm ∧ value.Firm
  | .spread source | .ignored source => source.Firm

/-- Whether the parts of an object literal are firm. -/
def ObjectPart.AllFirm : List ObjectPart → Prop
  | [] => True
  | part :: rest => part.Firm ∧ ObjectPart.AllFirm rest

/-- Whether a pattern is firm, where it may bind its names in some ways only. -/
def Pattern.Firm : Pattern → (BindingMode → Prop) → Prop
  | .name mode _ _, Own => Own mode
  | .member object key, _ => object.Firm ∧ key.Firm
  | .withDefault inner default, Own => inner.Firm Own ∧ default.Firm
  | .object parts _, Own => PatternPart.AllFirm parts Own
  | .array elements _, Own => Pattern.FirmElements elements Own

/-- Whether the elements of an array pattern are firm. -/
def Pattern.FirmElements : List (Option (Pattern × Bool)) → (BindingMode → Prop) → Prop
  | [], _ => True
  | none :: rest, Own => Pattern.FirmElements rest Own
  | some (p, _) :: rest, Own => p.Firm Own ∧ Pattern.FirmElements rest Own

/-- Whether the parts of an object pattern are firm. -/
def PatternPart.AllFirm : List PatternPart → (BindingMode → Prop) → Prop
  | [], _ => True
  | .property key pattern :: rest, Own => key.Firm ∧ pattern.Firm Own ∧ PatternPart.AllFirm rest Own
  | .rest pattern :: rest, Own => pattern.Firm Own ∧ PatternPart.AllFirm rest Own

/-- Whether parameters are firm. -/
def Pattern.FirmParameters : List (Pattern × Bool) → Prop
  | [] => True
  | (p, _) :: rest => p.Firm (fun _ => True) ∧ Pattern.FirmParameters rest

/-- Whether a function body is firm. -/
def Template.Firm : Template → Prop
  | .mk _ _ parameters body hoisted _ _ _ =>
    Pattern.FirmParameters parameters ∧ body.Firm ∧ hoisted.Firm

/-- Whether the declared functions of a body are firm. -/
def Template.AllFirm : List (String × Template) → Prop
  | [] => True
  | (_, t) :: rest => t.Firm ∧ Template.AllFirm rest

/-- Whether the declarations of a body are firm. -/
def Hoisted.Firm : Hoisted → Prop
  | .mk _ functions _ _ => Template.AllFirm functions

/-- Whether a class is firm. -/
def ClassTemplate.Firm : ClassTemplate → Prop
  | .mk _ _ parent constructor members _ _ =>
    Code.Firm? parent ∧ Template.Firm? constructor ∧ ClassMember.AllFirm members

/-- Whether a function body that may be absent is firm. -/
def Template.Firm? : Option Template → Prop
  | none => True
  | some t => t.Firm

/-- Whether the members of a class are firm. -/
def ClassMember.AllFirm : List ClassMember → Prop
  | [] => True
  | .method key template _ :: rest => key.Firm ∧ template.Firm ∧ ClassMember.AllFirm rest
  | .accessor _ :: rest => ClassMember.AllFirm rest
  | .field key init _ _ :: rest => key.Firm ∧ Code.Firm? init ∧ ClassMember.AllFirm rest

end

end

theorem Template.AllFirm.mem {Sets : BindingMode → Prop} : ∀ {l : List (String × Template)}, Template.AllFirm Sets l →
    ∀ {entry : String × Template}, entry ∈ l → entry.2.Firm Sets
  | (_, _) :: _, h, _, hentry => by
    rcases List.mem_cons.mp hentry with rfl | hrest
    · exact h.1
    · exact mem h.2 hrest

/-- Whether a program is firm. -/
structure Program.Firm (Sets : BindingMode → Prop) (p : Program) : Prop where
  hoisted : p.hoisted.Firm Sets
  body : p.body.Firm Sets

end GuestScript
