import GuestScript.Proofs.Mirror.Update
import GuestScript.Proofs.Realm
import GuestScript.Proofs.Trust.Sound

/-!
# The sandbox

Scripts cannot change the built-in objects: every object that is protected when a machine is made stays what it was,
with all that it stores, through any host calls. This rests on every write being guarded, and two are not. A parent
class sets up the instance that it is given, and a name is written to the object of its scope, without a look at
whether the object is protected. So the theorem has a condition, and it is about these two ways in only: no host call
opens one of them to a protected object (`Event.Opens`).

* `Watch.sandbox` says what is to be kept; its laws are what `Proofs.Realm` shows of the first machine.
* `HostCall.keeps_intact` is the step, one host call, and `HostCall.sandbox_integrity` the run.
-/

namespace GuestScript

open Session (restarted returned bound)

variable {α : Type} {x : Eval α} {m : Machine}

/-! ## 1. Protected objects -/

/-- Whether an object is protected when a machine is made. -/
def ObjectId.IsProtected (id : ObjectId) : Prop :=
  Machine.initial.realm.label? id ≠ none

/-- A machine on which every protected object is what it was in the first place, and is protected still. -/
structure State.Intact (s : State) : Prop where
  labels : s.realm.labels = Machine.initial.realm.labels
  size : Machine.initial.heap.size ≤ s.heap.size
  objects : ∀ id : ObjectId, id.IsProtected → s.objectAt id = Machine.initial.objectAt id

theorem Machine.initial_intact : initial.Intact :=
  ⟨rfl, Nat.le_refl _, fun _ _ => rfl⟩

/-- A protected object has a place on the heap. -/
theorem ObjectId.IsProtected.lt_size {id : ObjectId} (h : id.IsProtected) : id.index < Machine.initial.heap.size := by
  rw [← Machine.initial_size_labels]
  refine Nat.lt_of_not_le fun hle => h ?_
  simp [Realm.label?, Array.getElem?_eq_none hle]

namespace State.Intact

variable {s : State} {id : ObjectId}

/-- A protected object is reserved. -/
theorem reserved (h : s.Intact) (hid : id.IsProtected) : (s.objectAt id).Reserved := by
  rw [h.objects id hid]
  exact Machine.initial_reserved id

/-- Only protected objects have a label. -/
theorem label?_eq (h : s.Intact) (id : ObjectId) : s.realm.label? id = Machine.initial.realm.label? id := by
  unfold Realm.label?
  rw [h.labels]

theorem of_eq {s' : State} (h : s.Intact) (hheap : s'.heap = s.heap)
    (hlabels : s'.realm.labels = s.realm.labels) : s'.Intact where
  labels := hlabels.trans h.labels
  size := by
    rw [hheap]
    exact h.size
  objects id hid := by
    have hobject : s'.objectAt id = s.objectAt id := by simp only [State.objectAt, hheap]
    rw [hobject]
    exact h.objects id hid

/-- A new object is put behind all protected ones. -/
theorem push (h : s.Intact) (o : Object) : State.Intact { s with heap := s.heap.push o } where
  labels := h.labels
  size := by
    rw [Array.size_push]
    exact Nat.le_succ_of_le h.size
  objects id hid := by
    have hlt : id.index < s.heap.size := Nat.lt_of_lt_of_le hid.lt_size h.size
    rw [← h.objects id hid]
    simp [State.objectAt, Array.getElem?_push, Nat.ne_of_lt hlt]

/-- Any other object may be written to. -/
theorem set (h : s.Intact) (hid : ¬ id.IsProtected) (o : Object) :
    State.Intact { s with heap := s.heap.setIfInBounds id.index o } where
  labels := h.labels
  size := by
    rw [Array.size_setIfInBounds]
    exact h.size
  objects id' hid' := by
    have hne : id.index ≠ id'.index := by
      rintro heq
      obtain rfl : id = id' := by cases id; cases id'; exact congrArg ObjectId.mk heq
      exact hid hid'
    rw [← h.objects id' hid']
    simp [State.objectAt, Array.getElem?_setIfInBounds_ne hne]

end State.Intact

/-- The watch over the protected objects. -/
def Watch.sandbox : Watch where
  Free id := ¬ id.IsProtected
  Fits := State.Intact
  constructing := true
  notes := true
  unlabeled_free h hlabel hid := hid (h.label?_eq _ ▸ hlabel)
  date_free h hsort hid := (h.reserved hid).notDate hsort
  collection_free h hsort hid := (h.reserved hid).notCollection _ hsort
  listed_free h hname hid := by
    rw [(h.reserved hid).enumerableNames_eq_nil] at hname
    cases hname
  fresh_free h hid := Nat.not_lt.mpr h.size hid.lt_size
  fits_of_eq h hheap hlabels := h.of_eq hheap hlabels
  fits_push h o := h.push o
  fits_set h hid o := h.set hid o

/-! ## 2. One host call -/

/-- A trusted action that opens no door to a protected object leaves the machine intact. -/
theorem Eval.intact_runOn (hx : x.Trusted Watch.sandbox) (hm : m.Intact)
    (hshut : (x.logOn m).Shut (¬ ObjectId.IsProtected ·)) : (finalMachine (x.runOn m)).Intact :=
  (keeps_run nestingLimit hx ⟨hm, fun _ => rfl⟩ hshut).fits

namespace HostCall

variable {m : Machine}

theorem intact_ofEval (hx : x.Trusted Watch.sandbox) (hm : m.Intact)
    (hshut : (x.logOn m).Shut (¬ ObjectId.IsProtected ·)) : (finalMachine (Session.ofEval x m)).Intact := by
  rw [Session.ofEval_eq, finalMachine_surfaced]
  exact Eval.intact_runOn hx hm hshut

/-- Binding a machine writes no object. -/
theorem intact_bound (hm : m.Intact) (bindings : ObjectId) (options : Options) (opened : ScopeId × ScopeId) :
    (bound bindings options opened m).Intact :=
  hm.of_eq rfl rfl

theorem intact_restarted (hm : m.Intact) : (restarted m).Intact :=
  hm.of_eq rfl rfl

theorem intact_returned (hm : m.Intact) : (returned m).Intact :=
  hm.of_eq rfl rfl

/-- A run of a program leaves the machine intact. -/
theorem intact_run (p : Program) (hm : m.Intact) (hshut : (runLog p m).Shut (¬ ObjectId.IsProtected ·)) :
    (finalMachine (Session.run p m)).Intact := by
  have hexecute := Eval.intact_runOn (Eval.trusted_execute rfl p) (intact_restarted hm) hshut.left
  have hrest := hshut.right
  rw [run_eq]
  cases hr : (Eval.execute p).runOn (restarted m) with
  | ok v m' =>
    rw [hr] at hexecute
    simp only [hr] at hrest
    exact intact_ofEval (Eval.trusted_hideGlobal v) (intact_returned hexecute) hrest
  | error s m' =>
    rw [hr] at hexecute
    cases s <;> exact intact_returned hexecute

/-- **A host call leaves the machine intact**, unless it opens a door to a protected object. -/
theorem keeps_intact (c : HostCall) (hm : m.Intact) (hshut : (c.log m).Shut (¬ ObjectId.IsProtected ·)) :
    (finalMachine (c.perform m)).Intact := by
  cases c with
  | reset bindings options =>
    have hopened := intact_ofEval (Eval.trusted_openScopes bindings options.rootContext) hm hshut
    rw [reset_eq]
    cases hr : Session.ofEval (Eval.openScopes bindings options.rootContext) m with
    | ok opened m' =>
      rw [hr] at hopened
      exact intact_bound hopened bindings options opened
    | error f m' =>
      rw [hr] at hopened
      exact hopened
  | evaluate source =>
    simp only [log, Session.parse] at hshut
    rw [evaluate_eq, Session.parse]
    cases htree : m.rules.treeOf source with
    | error f => exact hm
    | ok parsed =>
      simp only [htree] at hshut
      have hcompile := Eval.intact_runOn (Eval.trusted_compileTree parsed.1 parsed.2) hm hshut.left
      have hrest := hshut.right
      simp only [Session.ofEval]
      cases hr : (Eval.compileTree parsed.1 parsed.2).runOn m with
      | ok p m' =>
        rw [hr] at hcompile
        simp only [hr] at hrest
        exact intact_run p hcompile hrest
      | error s m' =>
        rw [hr] at hcompile
        cases s <;> exact hcompile
  | run p => exact intact_run p hm hshut
  | call function receiver args =>
    refine intact_ofEval (m := restarted m) ?_ (intact_restarted hm) hshut
    exact (Eval.trusted_callFunction function receiver args).bind fun v _ => Eval.trusted_hideGlobal v
  | construct function args =>
    exact intact_ofEval (Eval.trusted_constructFunction function args) (intact_restarted hm) hshut

/-! ## 3. Any host calls -/

/-- Host calls leave the machine intact, unless one of them opens a door to a protected object. -/
theorem intact_performAll (calls : List HostCall) (hm : m.Intact)
    (hshut : (logAll calls m).Shut (¬ ObjectId.IsProtected ·)) : (performAll calls m).Intact := by
  induction calls generalizing m with
  | nil => exact hm
  | cons c calls ih => exact ih (c.keeps_intact hm hshut.left) hshut.right

/-- **Sandbox integrity.** After any host calls on a new machine, every protected object is exactly what it was when
the machine was made, unless one of two things has happened: a parent class was asked to set up a protected object as
its instance, or a name was written to a scope whose object is protected. -/
theorem sandbox_integrity (calls : List HostCall)
    (hshut : (logAll calls Machine.initial).Shut (¬ ObjectId.IsProtected ·)) :
    ∀ id : ObjectId, id.IsProtected → (performAll calls Machine.initial).objectAt id = Machine.initial.objectAt id :=
  (intact_performAll calls Machine.initial_intact hshut).objects

end HostCall

namespace Eval

/-! ## 4. Actions that open no door -/

/-- Whether an action asks for nothing and writes no names. -/
def Quiet {α : Type} : Eval α → Prop
  | .andThen x f => x.Quiet ∧ ∀ a, (f a).Quiet
  | .update (.names _ _) => False
  | .settle x => x.Quiet
  | .within _ x => x.Quiet
  | .nest _ x refused => x.Quiet ∧ refused.Quiet
  | .loop _ _ => False
  | .ask _ => False
  | _ => True

variable {Free : ObjectId → Prop} {answers : Answers} {logs : RequestLogs}

/-- The log of an action that is no door itself is shut if what happens inside it is. -/
theorem shut_log_of_inside (hx : ¬ (Event.start x m).Opens Free) (h : (x.inside answers logs m).Shut Free) :
    (x.log answers logs m).Shut Free :=
  forall_mem_log answers logs m hx h id

/-- A quiet action opens no door. -/
theorem shut_log_of_quiet (hx : x.Quiet) (m : Machine) : (x.log answers logs m).Shut Free := by
  induction x generalizing m with
  | done | stop | read | charge | counted | clock => exact shut_log_of_inside id (.nil Free)
  | update u =>
    refine shut_log_of_inside ?_ (.nil Free)
    cases u with
    | names scope f => exact hx.elim
    | _ => exact id
  | andThen x f ihx ihf =>
    refine shut_log_of_inside id ?_
    rw [inside_andThen]
    intro e he
    rcases List.mem_append.mp he with he | he
    · exact ihx hx.1 m e he
    · cases hr : x.run answers m with
      | error e' m' => simp [hr] at he
      | ok a m' =>
        simp only [hr] at he
        exact ihf a (hx.2 a) m' e he
  | settle x ih => exact shut_log_of_inside id (ih hx m)
  | within frame x ih => exact shut_log_of_inside id (ih hx _)
  | nest name x refused ihx ihr =>
    refine shut_log_of_inside id ?_
    rw [inside_nest]
    split
    · exact ihx hx.1 _
    · exact ihr hx.2 m
  | loop | ask => exact hx.elim

end Eval

namespace HostCall

variable {Free : ObjectId → Prop}

theorem shut_log_reset {bindings : ObjectId} {options : Options}
    (h : (Eval.openScopes bindings options.rootContext).Quiet) (m : Machine) :
    ((reset bindings options).log m).Shut Free :=
  Eval.shut_log_of_quiet h m

theorem shut_log_run {p : Program} (h : (Eval.execute p).Quiet) (m : Machine) : ((run p).log m).Shut Free := by
  refine .append (Eval.shut_log_of_quiet h _) ?_
  split
  · rename_i v m' _
    have hhide : (Eval.hideGlobal v).Quiet := by cases v <;> trivial
    exact Eval.shut_log_of_quiet hhide _
  · exact .nil Free

/-- A program of one step that notes a result. -/
def oneStep : Program where
  hoisted := .mk [] [] [] false
  body := .step none (.expression (.constant (.boolean true)))

theorem quiet_execute_oneStep : (Eval.execute oneStep).Quiet := by
  refine ⟨trivial, fun _ => ⟨trivial, fun _ => ⟨trivial, fun _ => ⟨trivial, fun _ => ?_⟩⟩⟩⟩
  refine ⟨trivial, fun _ => ⟨⟨⟨trivial, fun _ => trivial⟩, fun _ => ?_⟩, fun completion => ?_⟩⟩
  · exact ⟨⟨trivial, fun _ => trivial⟩, fun _ => ⟨trivial, fun _ => trivial⟩⟩
  · cases completion <;> trivial

/-- A new machine is bound to an object of its own and runs a program of one step. -/
def firstRun : List HostCall :=
  [.reset ⟨Machine.initial.heap.size⟩ {}, .run oneStep]

/-- The first run opens no door, and every protected object is what it was after it. -/
theorem sandbox_integrity_firstRun :
    (logAll firstRun Machine.initial).Shut (¬ ObjectId.IsProtected ·) ∧
      ∀ id : ObjectId, id.IsProtected →
        (performAll firstRun Machine.initial).objectAt id = Machine.initial.objectAt id := by
  have hopen : ∀ bindings, (Eval.openScopes bindings none).Quiet := by
    intro bindings
    simp [Eval.openScopes, Eval.Quiet, bind, pure, Eval.openFrame, Eval.newScope]
  have hshut : (logAll firstRun Machine.initial).Shut (¬ ObjectId.IsProtected ·) := by
    rw [firstRun, logAll, logAll, logAll]
    exact .append (shut_log_reset (hopen _) _) (.append (shut_log_run quiet_execute_oneStep _) (.nil _))
  exact ⟨hshut, sandbox_integrity firstRun hshut⟩

end HostCall

end GuestScript
