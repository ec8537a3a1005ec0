import GuestScript.Proofs.Grammar.Lowering
import GuestScript.Proofs.Grammar.Statement

/-!
# The nesting of programs

Every goal gives trees that fit, however many levels there are to go (`Parser.reach_sound`), so every program that is
parsed fits (`parse_fits`). What follows is the bound on nesting that the parser keeps: no path through a tree passes
more charged productions than `maxNesting`, and one more of them is refused where it would start.

What is charged for is a statement, an operand, an operator before an operand, the right side of an operation and a
`new` behind another one. A declaration in a list, a pattern, a member of a class, a superclass and the body of a
function are not, so trees that consist of these can be of any height.

What a program covers, all levels counted from its top, tells which trees can be lowered. A tree that is nested deeper
than the levels there are is refused, whoever made it. A tree that was parsed is lowered, unless it is nested too deep
or declares a name a second time, or holds what is left over of an expression that could have been a pattern.
-/

namespace GuestScript

namespace Parser

/-! ## 1. Goals -/

/-- **Every goal gives a tree that fits.** -/
theorem reach_sound : ∀ levels, Sound (reach levels)
  | 0 =>
    { item := fun _ => gives_fail _
      statement := fun _ => gives_fail _
      assignment := fun _ => gives_fail _
      unary := fun _ => gives_fail _
      newExpression := fun _ => gives_fail _
      binaryRest := fun _ _ _ _ _ _ => gives_fail _
      leftHandSide := fun _ => gives_fail _
      bindingTarget := fun _ => gives_fail _ }
  | levels + 1 =>
    have ih := reach_sound levels
    { item := fun hdepth => gives_item ih hdepth
      statement := fun _ => gives_nested fun hlt => gives_statement ih hlt
      assignment := fun _ => gives_nested fun hlt => gives_assignment ih hlt
      unary := fun _ => gives_nested fun hlt => gives_unary ih hlt
      newExpression := fun _ => gives_nested fun hlt => gives_newExpression ih hlt
      binaryRest := fun _ hle marker _ hleft least =>
        gives_nested fun hlt => gives_binaryRestFrom ih hlt (Nat.le_succ_of_le hle) marker hleft least
      leftHandSide := fun hdepth => gives_leftHandSide ih hdepth
      bindingTarget := fun hdepth => gives_bindingTarget ih hdepth }

/-- **A whole program fits.** -/
theorem gives_program {reach : Reach} (hr : Sound reach) : Gives 0 (program reach) fun n => n.Fits .program 0 := by
  refine keeps_start.then fun marker => keeps_get.then fun p => ?_
  have hend : Keeps Parser.depth (do pure (← get).current.isEof) := keeps_get.bind fun _ => keeps_pure _
  refine (gives_bodyItems hr (Nat.zero_le _) hend _ _ [] nofun).bind fun body hbody => keeps_get.then fun p => ?_
  refine gives_pure ⟨Nat.zero_le _, .inl rfl, List.forall_mem_map.2 fun n hn => ?_⟩
  exact hbody n (List.mem_reverse.1 hn)

end Parser

/-- **Every program that is parsed fits.** -/
theorem parse_fits {source : String} {options : ParseOptions} {n : Node} (h : parse source options = .ok n) :
    n.Fits .program 0 := by
  unfold parse at h
  split at h
  · cases h
  rename_i modern _
  have hprogram : Parser.Gives 0 (do
      discard Parser.advance
      Parser.program (Parser.reach (4 * source.utf8ByteSize + 16))) fun n => n.Fits .program 0 :=
    (Parser.keeps_discard Parser.keeps_advance).then fun _ => Parser.gives_program (Parser.reach_sound _)
  dsimp only at h
  split at h
  · rename_i hrun
    cases h
    exact (hprogram _ _ _ rfl hrun).2
  · cases h

/-! ## 2. The bound -/

/-- Whether a goal is charged for its nesting. -/
def Goal.isCharged : Goal → Bool
  | .item | .leftHandSide | .bindingTarget => false
  | _ => true

/-- Where as many charged goals are open as may nest, no other one is reached. -/
theorem Parser.reach_refuses (levels : Nat) {goal : Goal} (hgoal : goal.isCharged) {p : Parser}
    (hp : maxNesting ≤ p.depth) :
    reach (levels + 1) goal p =
      .error (.of "Too many nested statements or expressions" (some p.currentPosition)) p := by
  have hnested : ∀ x : Parse Node, nested x p =
      .error (.of "Too many nested statements or expressions" (some p.currentPosition)) p := by
    intro x
    have hget : nested x p = (if p.depth ≥ maxNesting then fail "Too many nested statements or expressions"
      else do
        modify fun p => { p with depth := p.depth + 1 }
        let result ← x
        modify fun p => { p with depth := p.depth - 1 }
        pure result : Parse Node) p := rfl
    rw [hget, if_pos hp]
    rfl
  cases goal with
  | item | leftHandSide | bindingTarget => cases hgoal
  | _ => exact hnested _

/-- **Nesting is bounded.** No path through a program that is parsed passes more charged productions than may nest,
and where that many are open, one more fails with a syntax error at the token ahead. -/
theorem parse_nesting {source : String} {options : ParseOptions} {n : Node} (h : parse source options = .ok n) :
    (∀ {place : Place} {last : Node} {k : Nat}, Node.Path Part.guards? place last .program n k → k ≤ maxNesting) ∧
      ∀ (levels : Nat) (goal : Goal) (p : Parser), goal.isCharged → maxNesting ≤ p.depth →
        Parser.reach (levels + 1) goal p =
          .error (.of "Too many nested statements or expressions" (some p.currentPosition)) p := by
  refine ⟨fun hpath => ?_, fun levels goal p hgoal hp => Parser.reach_refuses levels hgoal hp⟩
  have hle := (parse_fits h).guards_le hpath
  rwa [Nat.zero_add] at hle

theorem parse_nesting_brackets : ∃ n, parse "[[]]" {} = .ok n ∧
    ∀ {place : Place} {last : Node} {k : Nat}, Node.Path Part.guards? place last .program n k → k ≤ maxNesting := by
  have hok : (parse "[[]]" {}).isOk := by decide +kernel
  cases h : parse "[[]]" {} with
  | error e => simp [h, Except.isOk, Except.toBool] at hok
  | ok n => exact ⟨n, rfl, (parse_nesting h).1⟩

open Lower

/-! ## 3. Programs -/

/-- **A program is covered by its lowering.** -/
theorem Node.settles_lowerProgram (n : Node) :
    Settles n.lowerProgram (n.Within 0 .program) (n.Unsuited .program) := by
  have hstatements (l : List Node) (hparts : n.parts .program = l.map .item) :
      Settles (Lower.body (lexicalFrame l) (Node.lowerFunctions l 0) (Node.lowerStatements l 0))
        (n.Within 0 .program) (n.Unsuited .program) := by
    refine settles_node (Nat.zero_le _) (hparts ▸ ?_)
    have ih (m : Node) (_ : sizeOf m < sizeOf l) : m.IsCovered := m.isCovered
    exact covers_items (covers_lowerFunctions ih (Nat.zero_le _) l (Nat.le_refl _))
      (covers_lowerStatements ih l (Nat.le_refl _))
  obtain ⟨kind, span⟩ := n
  cases kind with
  | program statements =>
    exact (hstatements statements rfl).keep fun _ => settles_get.keep fun _ => settles_pure trivial
  | _ => exact (hstatements [_] rfl).keep fun _ => settles_get.keep fun _ => settles_pure trivial

/-- What becomes of a tree, as a program. -/
theorem ofTree_cases (n : Node) (source : Option String) :
    (∃ p, Program.ofTree n source = .ok p ∧ n.Within 0 .program) ∨
      ∃ e, Program.ofTree n source = .error e ∧ (e.IsNesting ∨ e.IsRedeclaration ∨ n.Unsuited .program) := by
  have h := n.settles_lowerProgram { source := source }
  unfold Program.ofTree
  split at h
  · rename_i p s hp
    exact .inl ⟨p, by rw [hp], h⟩
  · rename_i e s he
    exact .inr ⟨e, by rw [he], h⟩

/-! ## 4. The nesting of trees -/

/-- **Nesting is bounded.** A tree with a path that passes more levels than there are is not lowered. The fault is an
interrupt with its code, unless one that has nothing to do with the depth is found before: a second declaration of a
name, or a node that does not suit its place. -/
theorem ofTree_refuses_nesting {n : Node} {place : Place} {last : Node} {k : Nat}
    (hpath : Node.Path Part.levels? place last .program n k) (hdeep : Lower.maxNesting < k) (source : Option String) :
    ∃ e, Program.ofTree n source = .error e ∧
      ((∃ i, e = .interrupt i ∧ i.code = 3005 ∧ ∃ position, i = .of .nestingDepth "1024" position) ∨
        e.IsRedeclaration ∨ n.Unsuited .program) := by
  rcases ofTree_cases n source with ⟨p, _, hwithin⟩ | ⟨e, he, hfault⟩
  · have hle := hwithin place last k hpath
    omega
  · refine ⟨e, he, hfault.imp_left ?_⟩
    rintro ⟨position, rfl⟩
    exact ⟨_, rfl, rfl, position, rfl⟩

/-- Blocks within blocks. -/
def Node.blocks : Nat → Node
  | 0 => .mk .emptyStatement { start := 0, stop := 0, loc := none }
  | k + 1 => .mk (.blockStatement [blocks k]) { start := 0, stop := 0, loc := none }

/-- Every block is a level. -/
theorem Node.path_blocks : ∀ k, Node.Path Part.levels? .item (blocks 0) .item (blocks k) k
  | 0 => .here
  | k + 1 => by
    have hlevels : (Part.item (blocks k)).levels? = some 1 := by cases k <;> rfl
    have hpath : Node.Path Part.levels? .item (blocks 0) .item (blocks (k + 1)) (1 + k) :=
      .part (p := .item (blocks k)) List.mem_cons_self hlevels (path_blocks k)
    rwa [Nat.add_comm 1 k] at hpath

theorem ofTree_refuses_blocks : ∃ e, Program.ofTree (.blocks 1024) none = .error e ∧
    ((∃ i, e = .interrupt i ∧ i.code = 3005 ∧ ∃ position, i = .of .nestingDepth "1024" position) ∨
      e.IsRedeclaration ∨ (Node.blocks 1024).Unsuited .program) :=
  ofTree_refuses_nesting (.part (p := .item (.blocks 1024)) List.mem_cons_self rfl (Node.path_blocks 1024))
    (by decide) none

/-! ## 5. Trees that were parsed -/

/-- **What is parsed is lowered.** A tree that was parsed can be refused for its depth or for a name that is declared a
second time. Any other fault is one of a node that the parser left where it does not belong: a default value in an
object literal, or a member where a parameter is bound. -/
theorem ofTree_of_parse {text : String} {options : ParseOptions} {n : Node} (h : parse text options = .ok n)
    (source : Option String) :
    (∃ p, Program.ofTree n source = .ok p) ∨
      ∃ e, Program.ofTree n source = .error e ∧
        (e.IsNesting ∨ e.IsRedeclaration ∨
          ∃ place last k, Node.Path Part.levels? place last .program n k ∧ last.kind.isLeftover place) := by
  rcases ofTree_cases n source with ⟨p, hp, _⟩ | ⟨e, he, hfault⟩
  · exact .inl ⟨p, hp⟩
  · refine .inr ⟨e, he, hfault.imp_right (Or.imp_right ?_)⟩
    rintro ⟨place, last, k, hpath, hsuits⟩
    refine ⟨place, last, k, hpath, ((parse_fits h).suits_or_leftover hpath).resolve_left ?_⟩
    simp only [hsuits, Bool.false_eq_true, not_false_eq_true]

theorem ofTree_of_parse_call : ∃ n, parse "f(1)" {} = .ok n ∧
    ((∃ p, Program.ofTree n none = .ok p) ∨
      ∃ e, Program.ofTree n none = .error e ∧
        (e.IsNesting ∨ e.IsRedeclaration ∨
          ∃ place last k, Node.Path Part.levels? place last .program n k ∧ last.kind.isLeftover place)) := by
  have hok : (parse "f(1)" {}).isOk := by decide +kernel
  cases h : parse "f(1)" {} with
  | error e => simp [h, Except.isOk, Except.toBool] at hok
  | ok n => exact ⟨n, rfl, ofTree_of_parse h none⟩

end GuestScript
