import GuestScript.Proofs.Lowered
import Mathlib.Data.List.Induction
import GuestScript.Machine.Call

/-!
# What functions hoist and bind

Which variables a program or a function hoists, and when a tree is refused for a name that is declared twice, can be read
off the outline of the tree (`hoisted_vars`): the variables are those that are declared in it outside of functions, in
the order in which they are lowered, and a tree is refused when one of them has a name that a frame around its
declaration has, inside the same function.

The outline has the parts of a node in the order in which they are lowered. For statements that is their order in the
text. In trees that no text spells a declaration may stand where an expression belongs, and then it counts for the
function around it, even within a class (`hoists_from_class`).

A call makes and binds a list of its arguments only when the function was marked while it was lowered. Which functions
are marked can be read off their outlines as well: those that are no arrow functions, and in whose parameters or body,
outside of other such functions, `arguments` stands as an expression, or `eval` or `arguments` is called by name
(`arguments_of_outline`). A name that `typeof` looks at, or that is assigned to, is no such expression.
-/

namespace GuestScript

open Outline

/-! ## 1. Variables in the order of their declarations -/

namespace OpenBody

/-- In a new body, every name stands where it is declared first. -/
theorem toList_declaring (isArrow : Bool) (names : List String) :
    (({ isArrow := isArrow } : OpenBody).declaring names).vars.toList = names.eraseDups := by
  induction names using List.reverseRecOn with
  | nil => rfl
  | append_singleton names name ih =>
    have hlast : (({ isArrow := isArrow } : OpenBody).declaring (names ++ [name])).vars =
        if (({ isArrow := isArrow } : OpenBody).declaring names).vars.contains name then
          (({ isArrow := isArrow } : OpenBody).declaring names).vars
        else (({ isArrow := isArrow } : OpenBody).declaring names).vars.push name := by
      simp only [declaring, List.foldl_append, List.foldl_cons, List.foldl_nil]
      rfl
    have hmem : (({ isArrow := isArrow } : OpenBody).declaring names).vars.contains name = true ↔ name ∈ names := by
      rw [← Array.contains_toList, ih]
      simp
    rw [hlast, List.eraseDups_append, ← ih]
    by_cases hin : name ∈ names
    · rw [if_pos (hmem.mpr hin)]
      simp [List.removeAll, hin]
    · rw [if_neg (hin ∘ hmem.mp)]
      simp [List.removeAll, hin, List.eraseDups_cons]

end OpenBody

/-! ## 2. Functions and programs -/

namespace Lower

variable {α : Type} {x : Lower α} {l : List Outline} {P : α → Prop}

theorem noted_head (uses : Bool) (b : OpenBody) (rest : List OpenBody) : ∃ rest',
    noted uses (b :: rest) = { b with usesArguments := b.usesArguments || (!b.isArrow && uses) } :: rest' := by
  obtain ⟨isArrow, vars, frames, usesArguments⟩ := b
  cases uses with
  | false => exact ⟨rest, by simp [noted]⟩
  | true =>
    cases isArrow with
    | true => exact ⟨noteArgumentsIn rest, by simp [noted, noteArgumentsIn]⟩
    | false => exact ⟨rest, by simp [noted, noteArgumentsIn]⟩

/-- An action that succeeds in a body declares nothing twice there, and leaves behind what its outline comes to. -/
theorem Follows.succeeds (hx : Follows x l P) {source : Option String} {b : OpenBody} {rest : List OpenBody} {a : α}
    {s' : Lowering} (h : x ⟨source, b :: rest⟩ = .ok a s') :
    ¬ AnyRedeclares l b.frames ∧ s' = ⟨source, noted (anyUses l) (b.declaring (allVars l) :: rest)⟩ := by
  have hs := hx ⟨source, b :: rest⟩
  rw [h] at hs
  have hcomes := comes_runAll l source b rest
  by_cases hr : AnyRedeclares l b.frames
  · obtain ⟨name, position, s'', hfails⟩ := hcomes.fails hr
    cases hs.2.symm.trans hfails
  · have hok := hcomes.succeeds hr
    cases hs.2.symm.trans hok
    exact ⟨hr, rfl⟩

/-- An action that fails in a body fails for another reason, or it declares a name twice there. -/
theorem Follows.fails (hx : Follows x l P) {source : Option String} {b : OpenBody} {rest : List OpenBody}
    {e : LowerError} {s' : Lowering} (h : x ⟨source, b :: rest⟩ = .error e s') :
    e.IsOther ∨ AnyRedeclares l b.frames ∧ ∃ name position, e = .of .redeclareBlockScopeVariable name position := by
  have hs := hx ⟨source, b :: rest⟩
  rw [h] at hs
  refine hs.imp_right fun hfails => ?_
  obtain ⟨s'', hfails⟩ := hfails
  have hcomes := comes_runAll l source b rest
  by_cases hr : AnyRedeclares l b.frames
  · obtain ⟨name, position, s'', hsame⟩ := hcomes.fails hr
    cases hfails.symm.trans hsame
    exact ⟨hr, name, position, rfl⟩
  · cases hfails.symm.trans (hcomes.succeeds hr)

variable {kindName name : String} {span : Span} {flags : FunctionFlags} {arity : Nat} {bindsSelf isArrow : Bool}
  {parameters : Lower (List (Pattern × Bool))}
  {functionBody : Lower (LexicalFrame × List (String × Template) × Code)} {l' : List Outline} {s s' : Lowering}
  {t : Template}

/-- What a function hoists, and whether it uses its arguments, comes from the outline of its parameters and its body. -/
theorem hoisted_of_template (hparameters : Outlined parameters l) (hbody : Outlined functionBody l')
    (h : template kindName span flags arity name bindsSelf isArrow parameters functionBody s = .ok t s') :
    ¬ AnyRedeclares (l ++ l') [] ∧ t.hoisted.vars = (allVars (l ++ l')).eraseDups ∧
      t.hoisted.usesArguments = (!isArrow && anyUses (l ++ l')) := by
  unfold template at h
  split at h
  · cases h
  obtain ⟨⟨⟨ps, frame, functions, code⟩, b⟩, s₁, hinner, h⟩ := of_bind h
  obtain ⟨text, s₂, htext, h⟩ := of_bind h
  cases htext
  cases h
  obtain ⟨outer, s₃, houter, hinner⟩ := of_bind hinner
  cases houter
  obtain ⟨_, s₄, hopen, hinner⟩ := of_bind hinner
  cases hopen
  obtain ⟨parts, s₅, hparts, hinner⟩ := of_bind hinner
  obtain ⟨s₆, s₇, hget, hinner⟩ := of_bind hinner
  cases hget
  obtain ⟨_, s₈, hset, hinner⟩ := of_bind hinner
  cases hset
  cases hinner
  have hsucceeds := fun houtlined : Outlined _ _ => Follows.succeeds (l := l ++ l') houtlined hparts
  obtain ⟨hnot, rfl⟩ := hsucceeds (hparameters.bind fun _ _ => hbody.map fun _ _ => trivial)
  obtain ⟨rest, hhead⟩ := noted_head (anyUses (l ++ l'))
    (({ isArrow := isArrow } : OpenBody).declaring (allVars (l ++ l'))) s.bodies
  refine ⟨hnot, ?_, ?_⟩
  · change ((noted (anyUses (l ++ l')) _).headD {}).vars.toList = _
    rw [hhead, ← OpenBody.toList_declaring isArrow]
    rfl
  · change ((noted (anyUses (l ++ l')) _).headD {}).usesArguments = _
    rw [hhead]
    rfl

end Lower

section

variable {n : Node} {source : Option String}

/-- Lowering a program does to its body what its outline says. -/
theorem Node.outlined_lowerProgram (n : Node) : Lower.Outlined n.lowerProgram n.programOutline :=
  (n.follows_lowerProgram ⟨fun _ => True, fun _ _ => trivial⟩).outlined

theorem Node.outlined_lowerParameters (l : List Node) (depth : Nat) :
    Lower.Outlined (Node.lowerParameters l depth) (Node.patternOutlines l) :=
  (@follows_lowerParameters ⟨fun _ => True, fun _ _ => trivial⟩ l depth).outlined

theorem Node.outlined_lowerBody (n : Node) (depth : Nat) : Lower.Outlined (n.lowerBody depth) n.bodyOutline :=
  (@Node.follows_lowerBody ⟨fun _ => True, fun _ _ => trivial⟩ n depth).outlined

/-- A program hoists the variables of its body. -/
theorem Node.vars_of_lowerProgram {s s' : Lowering} {p : Program} (h : n.lowerProgram s = .ok p s') :
    p.hoisted.vars = (s'.bodies.headD {}).vars.toList := by
  obtain ⟨⟨frame, functions, code⟩, s₁, hbody, hrest⟩ := Lower.of_bind h
  obtain ⟨s₂, s₃, hget, hrest⟩ := Lower.of_bind hrest
  cases hget
  obtain ⟨text, bodies⟩ := s₁
  cases bodies with
  | nil =>
    cases hrest
    rfl
  | cons b rest =>
    cases hrest
    rfl

theorem Program.hoisted_of_ofTree {p : Program} (h : Program.ofTree n source = .ok p) :
    ¬ AnyRedeclares n.programOutline [] ∧ p.hoisted.vars = (allVars n.programOutline).eraseDups := by
  unfold ofTree at h
  split at h
  · rename_i p' s' hp
    cases h
    obtain ⟨hnot, rfl⟩ := n.outlined_lowerProgram.succeeds hp
    obtain ⟨rest, hhead⟩ := Lower.noted_head (anyUses n.programOutline)
      (({} : OpenBody).declaring (allVars n.programOutline)) []
    refine ⟨hnot, ?_⟩
    rw [Node.vars_of_lowerProgram hp, hhead, ← OpenBody.toList_declaring false]
    rfl
  · cases h

theorem Program.error_of_ofTree {e : LowerError} (h : Program.ofTree n source = .error e) :
    e.IsOther ∨ AnyRedeclares n.programOutline [] ∧
      ∃ name position, e = .of .redeclareBlockScopeVariable name position := by
  unfold ofTree at h
  split at h
  · cases h
  · rename_i e' s' hp
    cases h
    exact n.outlined_lowerProgram.fails hp

end

/-- **What is hoisted, and what is refused.** A tree that has no other fault is refused exactly when a `var` has a name
that a frame around its declaration has, in the same function. Otherwise the program hoists the variables that are
declared in it outside of functions, in the order of their first declarations and each one once, and so does every
function that is lowered. -/
theorem hoisted_vars :
    (∀ (n : Node) (source : Option String), (∀ e, Program.ofTree n source = .error e → ¬ e.IsOther) →
      ((∃ name position, Program.ofTree n source = .error (.of .redeclareBlockScopeVariable name position)) ↔
        AnyRedeclares n.programOutline [])) ∧
    (∀ (n : Node) (source : Option String) (p : Program), Program.ofTree n source = .ok p →
      p.hoisted.vars = (allVars n.programOutline).eraseDups) ∧
    ∀ (kindName : String) (span : Span) (flags : FunctionFlags) (name : String) (bindsSelf isArrow : Bool)
      (params : List Node) (body : Node) (depth : Nat) (s s' : Lowering) (t : Template),
      Lower.template kindName span flags (Lower.leadingParameters params) name bindsSelf isArrow
          (Node.lowerParameters params depth) (body.lowerBody depth) s = .ok t s' →
        t.hoisted.vars = (allVars (Node.patternOutlines params ++ body.bodyOutline)).eraseDups := by
  refine ⟨fun n source hother => ⟨?_, fun hr => ?_⟩, fun n source p h => (Program.hoisted_of_ofTree h).2, ?_⟩
  · rintro ⟨name, position, h⟩
    exact ((Program.error_of_ofTree h).resolve_left (hother _ h)).1
  · cases h : Program.ofTree n source with
    | ok p => exact absurd hr (Program.hoisted_of_ofTree h).1
    | error e =>
      obtain ⟨-, name, position, rfl⟩ := (Program.error_of_ofTree h).resolve_left (hother e h)
      exact ⟨name, position, rfl⟩
  · intro kindName span flags name bindsSelf isArrow params body depth s s' t h
    exact (Lower.hoisted_of_template (Node.outlined_lowerParameters params depth) (body.outlined_lowerBody depth) h).2.1

/-- A class alone can hoist a variable: in a tree, a declaration may stand where the value of a field belongs. -/
theorem hoists_from_class : ∃ id superClass body span p,
    Program.ofTree (.mk (.program [.mk (.classLike .declaration id superClass body) span]) span) none = .ok p ∧
      p.hoisted.vars = ["y"] := by
  let span : Span := ⟨0, 0, none⟩
  let declaration : Node := .mk (.variableDeclaration [.mk (.variableDeclarator (.mk (.identifier "y") span) none) span]
    .var) span
  let field : Node := .mk (.propertyDefinition (.mk (.identifier "x") span) (some declaration) false false) span
  refine ⟨some (.mk (.identifier "A") span), none, .mk (.classBody [field]) span, span, ?_⟩
  have h : (Program.ofTree (.mk (.program [.mk (.classLike .declaration (some (.mk (.identifier "A") span)) none
      (.mk (.classBody [field]) span)) span]) span) none).toOption.map (fun p => p.hoisted.vars) = some ["y"] := by
    decide +kernel
  cases hp : Program.ofTree (.mk (.program [.mk (.classLike .declaration (some (.mk (.identifier "A") span)) none
      (.mk (.classBody [field]) span)) span]) span) none with
  | ok p =>
    rw [hp] at h
    exact ⟨p, rfl, Option.some.inj h⟩
  | error e =>
    rw [hp] at h
    cases h

end GuestScript

/-! ## 3. Lists of arguments -/

namespace GuestScript

open Outline

namespace Eval

variable {function : ObjectId} {template : Template} {scope : ScopeId} {args : Array Value}

/-- Do something with a new list of arguments bound in a scope. -/
def withArguments (scope : ScopeId) (args : Array Value) (rest : Eval Completion) : Eval Completion := do
  setVariable scope "arguments" (.object (← newArguments args))
  rest

/-- Do something with a function bound to its own name, if it binds that. -/
def withName (function : ObjectId) (template : Template) (scope : ScopeId) (rest : Eval Completion) : Eval Completion :=
  if template.bindsSelf && !template.name.isEmpty then do
    setVariable scope template.name (.object function)
    rest
  else rest

/-- Bind the parameters, the inner functions and the variables of a function, and run its body. -/
def bodyProper (template : Template) (scope : ScopeId) (args : Array Value) : Eval Completion := do
  bindParameters args template.parameters 0
  instantiate template.hoisted.functions scope
  declareVars template.hoisted.vars scope
  template.body.exec

theorem runBody_of_marked (harrow : template.isArrow = false) (hmark : template.hoisted.usesArguments = true) :
    runBody function template scope args =
      withName function template scope (withArguments scope args (bodyProper template scope args)) := by
  simp only [runBody, harrow, hmark, withName, withArguments, bodyProper]
  cases template.bindsSelf && !template.name.isEmpty <;> rfl

theorem runBody_of_unmarked (hmark : (!template.isArrow && template.hoisted.usesArguments) = false) :
    runBody function template scope args = withName function template scope (bodyProper template scope args) := by
  simp only [runBody, hmark, withName, bodyProper]
  cases template.bindsSelf && !template.name.isEmpty <;> rfl

end Eval

/-- **Who gets a list of arguments.** A call binds one exactly when the function is no arrow function and is marked, and a
function is marked exactly when its outline has a use of the arguments outside of other functions that are no arrows. -/
theorem arguments_of_outline (kindName : String) (span : Span) (flags : FunctionFlags) (name : String)
    (bindsSelf isArrow : Bool) (params : List Node) (body : Node) (depth : Nat) (t : Template) :
    (∀ s s' : Lowering, Lower.template kindName span flags (Lower.leadingParameters params) name bindsSelf isArrow
        (Node.lowerParameters params depth) (body.lowerBody depth) s = .ok t s' →
      t.hoisted.usesArguments = (!isArrow && anyUses (Node.patternOutlines params ++ body.bodyOutline))) ∧
    ∀ (function : ObjectId) (scope : ScopeId) (args : Array Value),
      Eval.runBody function t scope args =
        Eval.withName function t scope
          (if !t.isArrow && t.hoisted.usesArguments then
            Eval.withArguments scope args (Eval.bodyProper t scope args)
          else Eval.bodyProper t scope args) := by
  refine ⟨fun s s' h => ?_, fun function scope args => ?_⟩
  · exact (Lower.hoisted_of_template (Node.outlined_lowerParameters params depth) (body.outlined_lowerBody depth) h).2.2
  · cases hmark : !t.isArrow && t.hoisted.usesArguments with
    | true =>
      obtain ⟨harrow, huses⟩ := Bool.and_eq_true_iff.mp hmark
      exact Eval.runBody_of_marked (by simpa using harrow) huses
    | false => exact Eval.runBody_of_unmarked hmark

/-- Whether the functions that a text declares are marked. -/
def Program.marks? (text : String) : Option (List Bool) :=
  ((parse text {}).toOption.bind fun n => (ofTree n none).toOption).map fun p =>
    p.hoisted.functions.map fun entry => entry.2.hoisted.usesArguments

/-- What `typeof` looks at does not mark a function. -/
theorem Program.marks?_typeof : marks? "function f() { return typeof arguments }" = some [false] ∧
    marks? "function f() { return arguments }" = some [true] := by
  decide +kernel

end GuestScript
