import GuestScript.Proofs.Grammar.Place
import Mathlib.Data.List.ReduceOption

/-!
# Levels of trees that are lowered

Lowering a tree either succeeds, and then no path through what is lowered passes more levels than are left, or it
fails. Then the fault is one of the two that a sound tree can have, too deep a nesting or a second declaration of a
name, or there is a node on such a path that does not suit the place where it stands.

`Lower.Covers` says this of an action that lowers some parts, and is put together along the actions that lowering
consists of: what two actions cover, the one after the other covers.
-/

namespace GuestScript

/-! ## 1. Trees -/

namespace Node

/-- Whether every path through what is lowered of a node fits the levels that are left at a depth. -/
def Within (depth : Nat) (place : Place) (n : Node) : Prop :=
  ∀ end' last k, Path Part.levels? end' last place n k → depth + k ≤ Lower.maxNesting

/-- Whether a node on a path through what is lowered does not suit its place. -/
def Unsuited (place : Place) (n : Node) : Prop :=
  ∃ end' last k, Path Part.levels? end' last place n k ∧ last.kind.suits end' = false

end Node

namespace Part

/-- Whether what is lowered of a part fits the levels that are left. -/
def Within (depth : Nat) (p : Part) : Prop :=
  p.isLowered → p.node.Within (depth + p.node.kind.levels p.place) p.place

/-- Whether a node that is lowered with a part does not suit its place. -/
def Unsuited (p : Part) : Prop :=
  p.isLowered ∧ p.node.Unsuited p.place

end Part

namespace Node

variable {depth depth' : Nat} {place : Place} {n : Node}

/-- The levels that are left suffice when they do for every part. -/
theorem within_of_parts (hdepth : depth ≤ Lower.maxNesting) (h : ∀ p ∈ n.parts place, p.Within depth) :
    n.Within depth place := by
  intro end' last k hpath
  cases hpath with
  | here => exact hdepth
  | @part place n p c k hp hc rest =>
    unfold Part.levels? at hc
    split at hc
    · rename_i hlowered
      cases hc
      have hpart := h p hp hlowered end' last k rest
      rwa [Nat.add_assoc] at hpart
    · cases hc

theorem Within.depth_le (h : n.Within depth place) : depth ≤ Lower.maxNesting :=
  h place n 0 .here

theorem Within.parts (h : n.Within depth place) : ∀ p ∈ n.parts place, p.Within depth := by
  intro p hp hlowered end' last k hpath
  have hcost : p.levels? = some (p.node.kind.levels p.place) := if_pos hlowered
  have hle := h end' last _ (.part hp hcost hpath)
  rwa [← Nat.add_assoc] at hle

/-- The levels that are left at a depth suffice above it. -/
theorem Within.mono (h : n.Within depth place) (hle : depth' ≤ depth) : n.Within depth' place :=
  fun end' last k hpath => Nat.le_trans (Nat.add_le_add_right hle k) (h end' last k hpath)

theorem unsuited_self (h : n.kind.suits place = false) : n.Unsuited place :=
  ⟨place, n, 0, .here, h⟩

theorem unsuited_of_part {p : Part} (hp : p ∈ n.parts place) (h : p.Unsuited) : n.Unsuited place := by
  obtain ⟨hlowered, end', last, k, hpath, hsuits⟩ := h
  exact ⟨end', last, _, .part hp (if_pos hlowered) hpath, hsuits⟩

/-- Where a node has the same parts, the levels that are left suffice as well. -/
theorem Within.congr (h : n.Within depth place) {place' : Place} (hparts : n.parts place' = n.parts place) :
    n.Within depth place' :=
  within_of_parts h.depth_le (hparts ▸ h.parts)

/-- Where a node has the same parts and what suits the place is the same, it is as unsuited. -/
theorem Unsuited.congr (h : n.Unsuited place) {place' : Place} (hparts : n.parts place' = n.parts place)
    (hsuits : n.kind.suits place' = n.kind.suits place) : n.Unsuited place' := by
  obtain ⟨end', last, k, hpath, hlast⟩ := h
  cases hpath with
  | here => exact unsuited_self (hsuits.trans hlast)
  | part hp hc rest => exact ⟨end', last, _, .part (hparts ▸ hp) hc rest, hlast⟩

end Node

theorem Part.Within.mono {depth depth' : Nat} {p : Part} (h : p.Within depth) (hle : depth' ≤ depth) :
    p.Within depth' :=
  fun hlowered => (h hlowered).mono (Nat.add_le_add_right hle _)

/-! ## 2. Faults -/

namespace LowerError

/-- The fault of a tree that is nested too deep. -/
def IsNesting (e : LowerError) : Prop :=
  ∃ position, e = .interrupt (.of .nestingDepth (toString Lower.maxNesting) position)

/-- The fault of a name that is declared a second time, which a script can catch. -/
def IsRedeclaration (e : LowerError) : Prop :=
  ∃ name position, e = .guest .referenceError (Diagnostic.render .redeclareBlockScopeVariable name position)

end LowerError

/-! ## 3. Actions -/

namespace Lower

/-- Whether an action, when it succeeds, shows something, and when it fails, fails with a fault that a sound tree can
have, or with something to blame. -/
def Settles {α : Type} (x : Lower α) (done blame : Prop) : Prop :=
  ∀ s, match x s with
    | .ok _ _ => done
    | .error e _ => e.IsNesting ∨ e.IsRedeclaration ∨ blame

/-- Whether an action covers parts: when it succeeds, the levels that are left suffice for each of them. -/
def Covers {α : Type} (depth : Nat) (x : Lower α) (ps : List Part) : Prop :=
  Settles x (∀ p ∈ ps, p.Within depth) (∃ p ∈ ps, p.Unsuited)

variable {α β : Type} {x : Lower α} {done done' blame blame' : Prop} {depth : Nat} {ps qs : List Part}

theorem settles_pure {a : α} (h : done) : Settles (pure a) done blame :=
  fun _ => h

theorem Settles.bind {f : α → Lower β} (hx : Settles x done blame) (hf : ∀ a, done → Settles (f a) done' blame) :
    Settles (x >>= f) (done ∧ done') blame := by
  intro s
  have hs := hx s
  simp only [Bind.bind, EStateM.bind]
  cases hr : x s with
  | error e s₁ =>
    rw [hr] at hs
    exact hs
  | ok a s₁ =>
    rw [hr] at hs
    have hs' := hf a hs s₁
    dsimp only
    cases hr' : f a s₁ with
    | error e s₂ =>
      rw [hr'] at hs'
      exact hs'
    | ok b s₂ =>
      rw [hr'] at hs'
      exact ⟨hs, hs'⟩

theorem Settles.mono (h : Settles x done blame) (hdone : done → done') (hblame : blame → blame') :
    Settles x done' blame' := by
  intro s
  have hs := h s
  cases hr : x s with
  | error e s₁ =>
    rw [hr] at hs
    exact hs.imp_right (Or.imp_right hblame)
  | ok a s₁ =>
    rw [hr] at hs
    exact hdone hs

theorem settles_ite {c : Prop} [Decidable c] {y : Lower α} (hx : c → Settles x done blame)
    (hy : ¬ c → Settles y done blame) : Settles (if c then x else y) done blame := by
  split
  · exact hx ‹_›
  · exact hy ‹_›

/-- Something to blame settles a fault. -/
theorem settles_fault (d : Diagnostic) (subject : String) (position : Option Position) (h : blame) :
    Settles (fault d subject position : Lower α) done blame :=
  fun _ => .inr (.inr h)

/-- A check of the nesting shows that a level is left. -/
theorem settles_checkNesting (depth : Nat) (position : Option Position) :
    Settles (checkNesting depth position) (depth < maxNesting) blame := by
  intro s
  unfold checkNesting
  by_cases hlt : depth < maxNesting
  · rw [if_pos hlt]
    exact hlt
  · rw [if_neg hlt]
    exact .inl ⟨position, rfl⟩

/-- What the first action shows may be used, and is not kept. -/
theorem Settles.then {f : α → Lower β} (hx : Settles x done blame) (hf : ∀ a, done → Settles (f a) done' blame) :
    Settles (x >>= f) done' blame :=
  (hx.bind hf).mono And.right id

/-- What the first action shows is kept. -/
theorem Settles.keep {f : α → Lower β} (hx : Settles x done blame) (hf : ∀ a, Settles (f a) True blame) :
    Settles (x >>= f) done blame :=
  (hx.bind fun a _ => hf a).mono And.left id

theorem settles_modify {f : Lowering → Lowering} : Settles (modify f : Lower Unit) True blame :=
  fun _ => trivial

theorem settles_get : Settles (get : Lower Lowering) True blame :=
  fun _ => trivial

theorem settles_describe (n : Node) : Settles (describe n) True blame :=
  fun _ => trivial

theorem settles_sourceOf (span : Span) : Settles (sourceOf span) True blame :=
  fun _ => trivial

theorem settles_inFrame (frame : LexicalFrame) (h : Settles x done blame) : Settles (inFrame frame x) done blame :=
  settles_modify.then fun _ _ => h.keep fun _ => settles_modify.keep fun _ => settles_pure trivial

theorem settles_inBody (isArrow : Bool) (h : Settles x done blame) : Settles (inBody isArrow x) done blame := by
  refine settles_get.then fun _ _ => settles_modify.then fun _ _ => h.keep fun a => settles_get.then fun s _ => ?_
  exact fun _ => trivial

/-- A `var` is declared, or declared a second time. -/
theorem settles_declareVar (position : Option Position) (name : String) :
    Settles (declareVar position name) True blame := by
  refine settles_get.then fun s _ => ?_
  split
  · split
    · exact fun _ => .inr (.inl ⟨name, position, rfl⟩)
    · split
      · exact settles_pure trivial
      · exact settles_modify
  · exact settles_pure trivial

theorem settles_forM {f : α → Lower PUnit} (hf : ∀ a, Settles (f a) True blame) :
    ∀ l : List α, Settles (l.forM f) True blame
  | [] => settles_pure trivial
  | a :: l => (hf a).then fun _ _ => settles_forM hf l

/-! ### What is covered -/

theorem covers_pure (a : α) : Covers depth (pure a) [] :=
  settles_pure nofun

/-- **What two actions cover, the one after the other covers.** -/
theorem Covers.bind {f : α → Lower β} (hx : Covers depth x ps) (hf : ∀ a, Covers depth (f a) qs) :
    Covers depth (x >>= f) (ps ++ qs) := by
  have hx' : Settles x (∀ p ∈ ps, p.Within depth) (∃ p ∈ ps ++ qs, p.Unsuited) :=
    hx.mono id fun ⟨p, hp, h⟩ => ⟨p, List.mem_append_left qs hp, h⟩
  refine (hx'.bind fun a _ => (hf a).mono id fun ⟨p, hp, h⟩ => ⟨p, List.mem_append_right ps hp, h⟩).mono ?_ id
  exact fun h => List.forall_mem_append.2 h

/-- What is made of a result lowers nothing more. -/
theorem Covers.map {f : α → β} (hx : Covers depth x ps) : Covers depth (do pure (f (← x))) ps :=
  Settles.keep hx fun _ => settles_pure trivial

/-- The parts may be listed in any order, and those that are not lowered may be left out. -/
theorem Covers.of (h : Covers depth x ps) (hsub : ∀ p ∈ ps, p ∈ qs) (hsup : ∀ p ∈ qs, p.isLowered → p ∈ ps) :
    Covers depth x qs :=
  h.mono (fun h p hp hlowered => h p (hsup p hp hlowered) hlowered) fun ⟨p, hp, hunsuited⟩ => ⟨p, hsub p hp, hunsuited⟩

/-- A part that is not lowered need not be covered. -/
theorem Covers.skip (h : Covers depth x ps) {p : Part} (hp : p.isLowered = false) : Covers depth x (p :: ps) := by
  refine h.of (fun q hq => List.mem_cons_of_mem p hq) fun q hq hlowered => ?_
  cases hq with
  | head => simp [hp] at hlowered
  | tail _ hq => exact hq

end Lower

end GuestScript
