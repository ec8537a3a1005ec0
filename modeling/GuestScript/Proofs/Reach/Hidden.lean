import GuestScript.Proofs.Reach.Hindsight

/-!
# Objects that only hold names are hidden

The object that holds the names of a scope is no value: no register, no property and no element holds it, no function
is bound to it, no request hands it on, and nothing gives it or throws it. That is so for the scopes of functions and
blocks and for the scope of the built-in names, whose object stands in for the host's global object
(`HostCall.names_hidden`).
-/

namespace GuestScript

/-! ## 1. What a state and an event mention -/

/-- The objects that a state mentions: those that scripts get hold of in whatever way, and those of scopes that are
made of an object. -/
def State.addresses (s : State) : List ObjectId :=
  s.toRegisters.addresses ++ s.rules.addresses ++ s.realm.globals.flatMap (fun entry => entry.2.addresses) ++
    s.heap.toList.flatMap Object.addresses ++
    (s.scopes.toList.filter fun scope => !scope.kind.ownsNames).map Scope.data

/-- The objects that an event hands on: in a request, as the answer to one, or as what is thrown. -/
def Event.addresses : Event → List ObjectId
  | .start (.ask request) _ => request.addresses
  | .finish (.ask _) (.ok v _) => v.addresses
  | .finish _ (.error (.thrown v) _) => v.addresses
  | _ => []

/-- The objects that a host gets from a host call. -/
def HostCall.given : EStateM.Result Failure Machine Value → List ObjectId
  | .ok v _ => v.addresses
  | .error (.uncaught _ v) _ => v.addresses
  | _ => []

section

variable {e : Embedding}

theorem State.mem_scopeAt {s : State} {id : ScopeId} (h : id.index < s.scopes.size) : s.scopeAt id ∈ s.scopes := by
  rw [scopeAt, Array.getD_eq_getD_getElem?, Array.getElem?_eq_getElem h]
  exact Array.getElem_mem h

theorem State.open_of_mirrors {s s' : State} (h : e.Mirrors s s')
    (hholds : ∀ id : ObjectId, id.index < s.heap.size → e.Holds id)
    (hsolid : ∀ id : ScopeId, id.index < s.scopes.size → e.Solid id) : ∀ id ∈ s.addresses, e.Open id := by
  unfold addresses
  simp only [List.forall_mem_append]
  refine ⟨⟨⟨⟨?_, ?_⟩, ?_⟩, ?_⟩, ?_⟩
  · exact Registers.open_of_within h.within_registers
  · exact Rules.open_of_within h.within_rules
  · intro id hid
    obtain ⟨entry, hentry, hid⟩ := List.mem_flatMap.mp hid
    exact entry.2.within_iff.mp (h.within_globals entry hentry).2 id hid
  · intro id hid
    obtain ⟨o, ho, hid⟩ := List.mem_flatMap.mp hid
    obtain ⟨i, hi, rfl⟩ := Array.mem_iff_getElem.mp (Array.mem_toList_iff.mp ho)
    have hat : s.objectAt ⟨i⟩ = s.heap[i] := by simp [objectAt, hi]
    exact Object.open_of_within (h.within_object (hholds ⟨i⟩ hi)) id (hat ▸ hid)
  · intro id hid
    obtain ⟨scope, hscope, rfl⟩ := List.mem_map.mp hid
    obtain ⟨hmem, howns⟩ := List.mem_filter.mp hscope
    obtain ⟨i, hi, rfl⟩ := Array.mem_iff_getElem.mp (Array.mem_toList_iff.mp hmem)
    have hat : s.scopeAt ⟨i⟩ = s.scopes[i] := by simp [scopeAt, hi]
    have hwithin : (s.scopes[i]).IsWithin e := hat ▸ h.within_scope (hsolid ⟨i⟩ hi)
    exact hwithin.opened (by simpa using howns)

theorem Event.open_of_allowed {event : Event} (h : event.Allowed e) : ∀ id ∈ event.addresses, e.Open id := by
  unfold addresses
  split
  · exact Request.open_of_within h
  · exact (Value.within_iff _).mp h
  · exact (Value.within_iff _).mp h
  · nofun

theorem HostCall.open_of_relates {r r' : EStateM.Result Failure Machine Value}
    (h : e.Relates (Within e) (image e) r r') : ∀ id ∈ given r, e.Open id := by
  cases h with
  | ok hv hm => exact (Value.within_iff _).mp hv
  | error hf hm =>
    rename_i f m m'
    cases f with
    | uncaught message v => exact (Value.within_iff v).mp hf
    | _ => nofun

end

/-! ## 2. Names are hidden -/

/-- Whether a state does not mention the objects that its scopes hold their names in. -/
def State.HidesNames (s : State) : Prop :=
  ∀ scope ∈ s.scopes, scope.kind.ownsNames = true → scope.data ∉ s.addresses

namespace HostCall

/-- The object of a scope that owns its names is one that was made for it. -/
theorem closed_of_ownsNames {e : Embedding} {s s' : State} (h : e.Mirrors s s')
    (hsolid : ∀ id : ScopeId, id.index < s.scopes.size → e.Solid id) {scope : Scope} (hscope : scope ∈ s.scopes) (howns : scope.kind.ownsNames = true) : e.Closed scope.data := by
  obtain ⟨i, hi, rfl⟩ := Array.mem_iff_getElem.mp hscope
  have hat : s.scopeAt ⟨i⟩ = s.scopes[i] := by simp [State.scopeAt, hi]
  have hwithin : (s.scopes[i]).IsWithin e := hat ▸ h.within_scope (hsolid ⟨i⟩ hi)
  exact hwithin.closed howns

/-- **Objects that only hold names are hidden.** Let a host make any calls on a grounded machine, such as the first one
with bindings of the host on its heap, and let it neither run what no compiler made nor hand in an object that holds
names. Then, at every event on the way and at the end, the object that holds the names of a function's scope, of a
block's, or of the scope of built-in names is mentioned nowhere, is not handed on, and is not given to the host. -/
theorem names_hidden (calls : List HostCall) {m : Machine} (hm : m.Grounded)
    (hcalls : ∀ c ∈ calls, c.IsCompiled ∧ ∀ id ∈ c.addresses, ¬ (logAll calls m).HoldsNames id) :
    (∀ event ∈ logAll calls m, event.machine.HidesNames ∧
        ∀ scope ∈ event.machine.scopes, scope.kind.ownsNames = true → scope.data ∉ event.addresses) ∧
      (performAll calls m).HidesNames ∧
      ∀ r ∈ outcomes calls m, ∀ scope ∈ (performAll calls m).scopes, scope.kind.ownsNames = true →
        scope.data ∉ given r := by
  obtain ⟨houtcomes, hkept, m', hlast⟩ := kept_logAll hm hcalls
  have hholds (id : ObjectId) : (hindsight calls hm).Holds id := (em _).symm
  have hclosed {s s' : State} (h : (hindsight calls hm).Mirrors s s') {scope : Scope} (hscope : scope ∈ s.scopes)
      (howns : scope.kind.ownsNames = true) : (hindsight calls hm).Closed scope.data :=
    closed_of_ownsNames h (fun _ _ => ⟨trivial, fun hclear => hclear⟩) hscope howns
  have hides {s s' : State} (h : (hindsight calls hm).Mirrors s s') : s.HidesNames := fun scope hscope howns hid =>
    State.open_of_mirrors h (fun id _ => hholds id) (fun _ _ => ⟨trivial, fun hclear => hclear⟩) _ hid
      (hclosed h hscope howns)
  refine ⟨fun event he => ?_, hides hlast.state, fun r hr scope hscope howns hid => ?_⟩
  · obtain ⟨⟨m₁, hmirrored⟩, hallowed⟩ := hkept event he
    refine ⟨hides hmirrored.state, fun scope hscope howns hid => ?_⟩
    exact Event.open_of_allowed hallowed _ hid (hclosed hmirrored.state hscope howns)
  · obtain ⟨r', hr'⟩ := houtcomes r hr
    exact open_of_relates hr' _ hid (hclosed hlast.state hscope howns)

/-- After a reset, the scope of the built-in names is there. -/
theorem kind_superScope_reset (bindings : ObjectId) (options : Options) (m : Machine) :
    let m' := finalMachine ((reset bindings options).perform m)
    m'.superScope.index < m'.scopes.size ∧ (m'.scopeAt m'.superScope).kind = .super := by
  have hlast : m.scopes.size ≠ m.scopes.size + 1 + 1 := by omega
  rw [reset_eq]
  cases hroot : options.rootContext <;>
    simp [Session.ofEval, Eval.runOn, Eval.openScopes, Eval.openFrame, Eval.newScope, Eval.newObject, Eval.allocate,
      bind, pure, Eval.run, Machine.updated, Update.apply.eq_def, State.pushScope, finalMachine, Session.bound,
      Session.clearState, State.scopeAt, Array.getElem?_push, Array.getElem_push, hlast]
  omega

/-- The first machine with an object for bindings. -/
def withBindings : Machine :=
  { Machine.initial with heap := Machine.initial.heap.push {} }

/-- A machine is bound, runs a program that gives its receiver, and is bound again. -/
def boundTwice : List HostCall :=
  [.reset ⟨Machine.initial.heap.size⟩ {}, .evaluate (.text "this"), .reset ⟨Machine.initial.heap.size⟩ {}]

/-- A host that is bound twice meets what is asked of it, and the object of the built-in names is hidden in the end. -/
theorem names_hidden_boundTwice :
    withBindings.Grounded ∧
      (∀ c ∈ boundTwice, c.IsCompiled ∧ ∀ id ∈ c.addresses, ¬ (logAll boundTwice withBindings).HoldsNames id) ∧
        ∃ scope ∈ (performAll boundTwice withBindings).scopes, scope.kind = .super ∧
          scope.data ∉ (performAll boundTwice withBindings).addresses := by
  have hgrounded : withBindings.Grounded := Machine.initial_grounded.push (o := {}) nofun nofun
  have hbindings : ¬ (logAll boundTwice withBindings).HoldsNames ⟨Machine.initial.heap.size⟩ := by
    intro hnames
    have hsize : withBindings.heap.size ≤ Machine.initial.heap.size :=
      (leads_logAll boundTwice withBindings).size_le_of_holdsNames hnames
    rw [withBindings, Array.size_push] at hsize
    omega
  have hcalls : ∀ c ∈ boundTwice, c.IsCompiled ∧ ∀ id ∈ c.addresses, ¬ (logAll boundTwice withBindings).HoldsNames id := by
    have hreset : ∀ id ∈ (reset ⟨Machine.initial.heap.size⟩ {}).addresses,
        ¬ (logAll boundTwice withBindings).HoldsNames id := fun id hid => List.mem_singleton.mp hid ▸ hbindings
    exact List.forall_mem_cons.mpr ⟨⟨trivial, hreset⟩, List.forall_mem_cons.mpr ⟨⟨trivial, nofun⟩,
      List.forall_mem_cons.mpr ⟨⟨trivial, hreset⟩, nofun⟩⟩⟩
  have hfinal : performAll boundTwice withBindings =
      finalMachine ((reset ⟨Machine.initial.heap.size⟩ {}).perform
        (performAll [.reset ⟨Machine.initial.heap.size⟩ {}, .evaluate (.text "this")] withBindings)) := rfl
  obtain ⟨hlt, hkind⟩ := kind_superScope_reset ⟨Machine.initial.heap.size⟩ {}
    (performAll [.reset ⟨Machine.initial.heap.size⟩ {}, .evaluate (.text "this")] withBindings)
  rw [← hfinal] at hlt hkind
  have hscope := State.mem_scopeAt hlt
  refine ⟨hgrounded, hcalls, _, hscope, hkind, ?_⟩
  exact (names_hidden boundTwice hgrounded hcalls).2.1 _ hscope (by rw [hkind]; rfl)

end HostCall

end GuestScript
