import GuestScript.Proofs.Mirror.Update
import GuestScript.Proofs.Trail

/-!
# Lexical names

A scope never goes away, and all that ever changes in it are the marks of its lexical names: from uninitialized to
initialized, by the update that ends a dead zone (`Event.Unlocks`), and never back.

What the actions on names do is stated for machines where it is known what the name resolves to. A constant that is
assigned fails: the action throws a new error, and nothing else changes (`Eval.Faults`).
-/

namespace GuestScript

/-! ## 1. Marks -/

namespace Scope

theorem lookup_setRecord (name other : String) (r : LexicalRecord) : ∀ records : List (String × LexicalRecord),
    (setRecord name r records).lookup other = if other = name then some r else records.lookup other
  | [] => by
    rw [setRecord, List.lookup_cons, List.lookup_nil]
    by_cases h : other = name
    · simp [h]
    · simp [beq_eq_false_iff_ne.mpr h, h]
  | (n, r') :: rest => by
    rw [setRecord]
    by_cases hn : n = name
    · subst hn
      simp only [beq_self_eq_true, if_true, List.lookup_cons]
      by_cases h : other = n
      · simp [h]
      · simp [beq_eq_false_iff_ne.mpr h, h]
    · rw [beq_eq_false_iff_ne.mpr hn, if_neg Bool.false_ne_true, List.lookup_cons, List.lookup_cons,
        lookup_setRecord name other r rest]
      by_cases h : other = n
      · subst h
        simp [hn]
      · simp [beq_eq_false_iff_ne.mpr h]

/-- Only the record of the name itself is marked. -/
theorem record?_markInitialized (s : Scope) (name other : String) :
    (s.markInitialized name).record? other =
      if other = name then (s.record? other).map fun r => { r with initialized := true } else s.record? other := by
  unfold markInitialized
  cases hr : s.record? name with
  | none =>
    dsimp only
    split
    · rename_i hsame
      rw [hsame, hr, Option.map_none]
    · rfl
  | some r =>
    dsimp only
    rw [record?, lookup_setRecord]
    split
    · rename_i hsame
      rw [hsame, hr, Option.map_some]
    · rfl

end Scope

/-! ## 2. Changes of scopes -/

namespace State

variable {s : State} {id : ScopeId} {name : String} {r : LexicalRecord}

/-- A scope with a record is there. -/
theorem index_lt_of_record? (h : (s.scopeAt id).record? name = some r) : id.index < s.scopes.size := by
  by_contra hle
  have hdefault : s.scopeAt id = default := by simp [scopeAt, Nat.le_of_not_lt hle]
  rw [hdefault] at h
  cases h

theorem scopeAt_pushScope_of_lt (h : id.index < s.scopes.size) (scope : Scope) :
    (s.pushScope scope).2.scopeAt id = s.scopeAt id := by
  rw [scopeAt_pushScope, if_neg h.ne]

end State

/-- Whether an event ends the dead zone of a name in a scope. -/
def Event.Unlocks (id : ScopeId) (name : String) : Event → Prop
  | .start (.update (.unlock scope name')) _ => scope = id ∧ name' = name
  | _ => False

/-- **What an event does to a scope**: nothing, or it ends the dead zone of one of its names. -/
theorem Event.scopeAt_after (event : Event) {id : ScopeId} (hid : id.index < event.machine.scopes.size) :
    event.after.scopeAt id = event.machine.scopeAt id ∨
      ∃ name, event.Unlocks id name ∧ event.after.scopeAt id = (event.machine.scopeAt id).markInitialized name := by
  cases event with
  | finish x r => exact .inl rfl
  | start x m =>
    cases x with
    | update u =>
      change (u.apply m.toState).2.scopeAt id = _ ∨ ∃ name, _ ∧ (u.apply m.toState).2.scopeAt id = _
      cases u with
      | newScope scope => exact .inl (State.scopeAt_pushScope_of_lt hid scope)
      | newFrame kind parent lexical held =>
        exact .inl (State.scopeAt_pushScope_of_lt (s := { m.toState with heap := _ }) hid _)
      | unlock scope name =>
        simp only [Update.apply.eq_def, State.scopeAt_modify]
        split
        · rename_i hsame
          exact .inr ⟨name, ⟨hsame.1.symm, rfl⟩, hsame.1 ▸ rfl⟩
        · exact .inl rfl
      | result v =>
        left
        simp only [Update.apply.eq_def]
        split <;> rfl
      | allocate | object | link | names | newSymbol | global | position => exact .inl rfl
    | _ => exact .inl rfl

namespace Event

variable {event : Event} {id : ScopeId} {name : String} {r : LexicalRecord}

/-- A record stays, and it is marked only by the event that ends its dead zone. -/
theorem record?_after (h : (event.machine.scopeAt id).record? name = some r) :
    (event.after.scopeAt id).record? name = some r ∨
      event.Unlocks id name ∧ (event.after.scopeAt id).record? name = some { r with initialized := true } := by
  rcases event.scopeAt_after (State.index_lt_of_record? h) with hsame | ⟨name', hunlocks, hmarked⟩
  · exact .inl (hsame ▸ h)
  · rw [hmarked, Scope.record?_markInitialized, h]
    split
    · rename_i hname
      exact .inr ⟨hname ▸ hunlocks, rfl⟩
    · exact .inl rfl

/-- A record that is marked stays as it is. -/
theorem initialized_after {kind : LexicalKind} (h : (event.machine.scopeAt id).record? name = some ⟨true, kind⟩) :
    (event.after.scopeAt id).record? name = some ⟨true, kind⟩ := by
  rcases record?_after h with hsame | ⟨-, hmarked⟩
  · exact hsame
  · exact hmarked

end Event

end GuestScript

namespace GuestScript

namespace Eval

/-! ## 3. Faults -/

/-- The object of an error that is thrown for a script. -/
def errorObject (kind : ErrorKind) (message : String) : Object :=
  { prototype := some (Intrinsic.errorPrototype kind).id
    sort := .error
    properties := #[(.string "message", .hidden (.string message))] }

/-- Whether an action throws the error of a diagnostic and changes nothing but the heap, where the error is new. -/
def Faults {α : Type} (x : Eval α) (d : Diagnostic) (name : String) (position : Option Position) (m : Machine) : Prop :=
  ∀ answers : Answers, x.run answers m =
    .error (.thrown (.object ⟨m.heap.size⟩))
      { m with heap := m.heap.push (errorObject d.kind (d.render name position)) }

section

variable {α β : Type} {d : Diagnostic} {name : String} {position : Option Position} {m : Machine}

theorem faults_raise (hd : d.interrupts = false) : (raise d name position : Eval α).Faults d name position m := by
  intro answers
  simp only [raise, hd, Bool.false_eq_true, if_false]
  rfl

/-- What comes after a part that changes nothing. -/
theorem Faults.second {x : Eval α} {f : α → Eval β} {a : α} (hx : ∀ answers : Answers, x.run answers m = .ok a m)
    (h : (f a).Faults d name position m) : (x >>= f).Faults d name position m := by
  intro answers
  change (x.andThen f).run answers m = _
  simp only [run, hx answers]
  exact h answers

end

/-! ## 4. Names -/

section

variable {answers : Answers} {m : Machine} {scope : ScopeId} {name : String} {position : Option Position}

theorem run_resolve {access : State.Access} (h : m.resolve name access = .found scope) :
    (resolve name access position).run answers m = .ok scope m := by
  simp only [resolve, bind, run, h]
  rfl

/-- A value that a name stands for is read as it stands, if it is not hidden. -/
theorem run_readFrom? {v : Value}
    (hv : (m.objectAt (m.scopeAt scope).data).ownValue? name = some v)
    (hshown : ∀ answers : Answers, (hideGlobal v).run answers m = .ok v m) :
    (readFrom? scope name).run answers m = .ok (some v) m := by
  obtain ⟨p, hp, hpv⟩ := Option.bind_eq_some_iff.mp hv
  have hlookup : m.lookup? (m.scopeAt scope).data (.string name) = some p := by
    rw [State.lookup?, State.lookupFrom, hp]
  obtain ⟨content, enumerable, configurable⟩ := p
  cases content with
  | accessor getter setter => cases hpv
  | data value writable =>
    cases hpv
    have hshown := hshown answers
    simp only [readFrom?, scopeAt, lookup?, readProperty, bind, pure, run, hlookup, hshown]

theorem run_resolveValue {v : Value} (h : m.resolve name .use = .found scope)
    (hv : (readFrom? scope name).run answers m = .ok (some v) m) :
    (resolveValue name position).run answers m = .ok (scope, v) m := by
  have hscope : (resolve name .use position).run answers m = .ok scope m := run_resolve h
  simp only [resolveValue, bind, pure, run, hscope, hv]

theorem run_readNameOrUndefined {v : Value} (h : m.resolve name .use = .found scope)
    (hv : (readFrom? scope name).run answers m = .ok (some v) m) :
    (readNameOrUndefined name position).run answers m = .ok v m := by
  have hscope : (resolve name .use position).run answers m = .ok scope m := run_resolve h
  simp only [readNameOrUndefined, bind, pure, run, hscope, hv, Option.getD_some]

/-- A constant cannot be assigned. -/
theorem faults_assignName_constant {initialized : Bool} (h : m.resolve name .use = .found scope)
    (hr : (m.scopeAt scope).record? name = some ⟨initialized, .constant⟩) (v : Value) :
    (assignName name v position).Faults .constChange name position m := by
  refine Faults.second (fun _ => run_resolve h) (Faults.second (fun _ => rfl) ?_)
  rw [hr]
  exact faults_raise rfl

end

end Eval

end GuestScript
