import GuestScript.Proofs.Reach.Record
import GuestScript.Proofs.Reach.Hidden

/-!
# Constants

A constant of a scope that has an object of its own keeps the value that it was initialized with, whatever runs, as
long as no declaration sets its name in that object again: no assignment does so in any of its forms, and nothing that
works on objects reaches the object of a scope (`HostCall.constants_keep`).

What sets a name is the update that declarations make, of parameters, of functions in their blocks and bodies, of
lexical names (`Event.Sets`). None of the declarations asks whether the name is that of a constant, and two of them
can meet one: a function that evaluated text declares, and a name that is declared twice.
-/

namespace GuestScript

variable {event : Event} {e : Embedding}

/-! ## 1. What a change does to a name -/

/-- Whether an event sets a name in an object that holds the names of a scope. -/
def Event.Sets (id : ObjectId) (name : String) : Event → Prop
  | .start (.update (.names scope f)) m => (m.scopeAt scope).data = id ∧ ∃ v, f = fun o => o.insertValue name v
  | _ => False

section

variable {e : Embedding} {id : ObjectId} {name : String} {p : Property}

theorem State.objectAt_push_of_own? {s : State} (h : (s.objectAt id).own? (.string name) = some p) (o : Object) :
    State.objectAt { s with heap := s.heap.push o } id = s.objectAt id := by
  rw [objectAt_push, if_neg]
  intro hsize
  rw [objectAt_of_size_le hsize.ge, own?_default] at h
  cases h

theorem State.own?_changeObject {α : Type} (s : State) {f : Object → Object × α} {key : Key}
    (h : (f (s.objectAt id)).1.own? key = (s.objectAt id).own? key) :
    ((s.changeObject id f).2.objectAt id).own? key = (s.objectAt id).own? key := by
  rw [changeObject_eq, objectAt_setObject]
  split
  · exact h
  · rfl

/-- What is declared keeps a name that is there, unless it sets that name. -/
theorem Object.HoldsNames.own?_declares {o : Object} (h : o.HoldsNames) (hp : o.own? (.string name) = some p)
    {f : Object → Object} (hf : Declares f) (hsets : ¬ ∃ v, f = fun o => o.insertValue name v) :
    (f o).own? (.string name) = o.own? (.string name) := by
  cases hf with
  | set name' v =>
    refine h.own?_insertValue_of_ne (fun hname => hsets ⟨v, ?_⟩) v
    rw [hname]
  | add name' =>
    dsimp only
    split
    · rfl
    · rename_i hhas
      refine h.own?_insertValue_of_ne (fun hname => hhas ?_) .undefined
      rw [← hname, hasOwn, hp]
      rfl

/-- **A change keeps a constant**, unless it sets its name. -/
theorem Event.own?_after (h : event.Kept e) (hclosed : e.Closed id) (hconstant : e.Constant id name)
    (hp : (event.machine.objectAt id).own? (.string name) = some p) (hsets : ¬ event.Sets id name) :
    (event.after.objectAt id).own? (.string name) = some p := by
  obtain ⟨⟨m', hmirrored⟩, hallowed⟩ := h
  have hnames : (event.machine.objectAt id).HoldsNames := hmirrored.state.names hclosed
  cases event with
  | finish x r => exact hp
  | start x m =>
    cases x with
    | update u =>
      obtain ⟨P, g, u', hu⟩ := hallowed
      change ((u.apply m.toState).2.objectAt id).own? _ = _
      change (m.objectAt id).own? _ = _ at hp
      change (m.objectAt id).HoldsNames at hnames
      cases hu with
      | allocate ho =>
        simp only [Update.apply.eq_def]
        rwa [State.objectAt_push_of_own? hp]
      | newFrame hkind hparent hheld hvalues =>
        simp only [Update.apply.eq_def, State.pushScope]
        change ((State.objectAt { m.toState with heap := _ } id).own? _) = _
        rwa [State.objectAt_push_of_own? hp]
      | object hid hw hf =>
        rename_i id' f f'
        have hne : id ≠ id' := fun hsame => e.apart hid (hsame ▸ hclosed)
        simp only [Update.apply.eq_def]
        rwa [State.objectAt_changeObject_of_ne _ hne]
      | link hid hprototype =>
        rename_i id' prototype
        have hne : id ≠ id' := fun hsame => e.apart hid (hsame ▸ hclosed)
        simp only [Update.apply.eq_def]
        rwa [State.objectAt_changeObject_of_ne _ hne]
      | closedObject hid hw hf hkeeps =>
        rename_i id' f f'
        simp only [Update.apply.eq_def]
        by_cases hsame : id = id'
        · subst hsame
          rwa [State.own?_changeObject _ ((hkeeps _ hnames).2 name hconstant)]
        · rwa [State.objectAt_changeObject_of_ne _ hsame]
      | names hscope hf hdeclares =>
        rename_i scope f f'
        simp only [Update.apply.eq_def]
        by_cases hsame : id = (m.scopeAt scope).data
        · subst hsame
          have hset : ¬ ∃ v, f = fun o => o.insertValue name v := fun hset => hsets ⟨rfl, hset⟩
          rwa [State.own?_changeObject _ (hnames.own?_declares hp hdeclares hset)]
        · rwa [State.objectAt_changeObject_of_ne _ hsame]
      | result hv =>
        simp only [Update.apply.eq_def]
        split <;> exact hp
      | newScope | unlock | newSymbol | global | position => exact hp
    | _ => exact hp

end

/-! ## 2. Constants of scopes -/

/-- Whether a log has seen how every constant of a scope that owns its names came about. -/
def State.KnowsConstants (l : Log) (s : State) : Prop :=
  ∀ (id : ScopeId) (name : String) (r : LexicalRecord), (s.scopeAt id).kind.ownsNames = true →
    (s.scopeAt id).record? name = some r → r.kind = .constant → l.HoldsConstant (s.scopeAt id).data name

namespace State

variable {l : Log} {s s' : State}

theorem KnowsConstants.congr (h : s.SameStore s') (hs : s.KnowsConstants l) : s'.KnowsConstants l := by
  intro id name r
  rw [h.scopeAt]
  exact hs id name r

theorem knowsConstants_of_empty (h : s.scopes = #[]) : s.KnowsConstants l := by
  intro id name r howns
  rw [scopeAt_of_empty h] at howns
  cases howns

/-- A scope that was there before goes on to be known. -/
theorem KnowsConstants.at_after (h : event.machine.KnowsConstants l) {id : ScopeId}
    (hid : id.index < event.machine.scopes.size) {name : String} {r : LexicalRecord}
    (howns : (event.after.scopeAt id).kind.ownsNames = true) (hr : (event.after.scopeAt id).record? name = some r)
    (hconstant : r.kind = .constant) : l.HoldsConstant (event.after.scopeAt id).data name := by
  rcases event.scopeAt_after hid with hsame | ⟨name', -, hmarked⟩
  · rw [hsame] at howns hr ⊢
    exact h id name r howns hr hconstant
  · rw [hmarked, Scope.data_markInitialized]
    rw [hmarked, Scope.kind_markInitialized] at howns
    have hkinds := (event.machine.scopeAt id).kind_record?_markInitialized name' name
    rw [← hmarked, hr, Option.map_some] at hkinds
    obtain ⟨r', hr', hkind⟩ := Option.map_eq_some_iff.mp hkinds.symm
    exact h id name r' howns hr' (hkind.trans hconstant)

end State

/-- The sort of the scope that an event makes of an object. -/
def Event.scopeKind? : Event → Option ScopeKind
  | .start (.update (.newScope scope)) _ => some scope.kind
  | _ => none

theorem Event.Kept.ownsNames_eq_false (h : event.Kept e) {kind : ScopeKind} (hkind : event.scopeKind? = some kind) :
    kind.ownsNames = false := by
  cases event with
  | finish x r => cases hkind
  | start x m =>
    cases x with
    | update u =>
      obtain ⟨P, g, u', hu⟩ := h.allowed
      cases hu with
      | newScope hplain =>
        cases hkind
        exact hplain
      | _ => cases hkind
    | _ => cases hkind

/-- An event that adds a scope adds one at the next address. -/
theorem Event.scopeAt_after_of_size_le (event : Event) {id : ScopeId} (hid : event.machine.scopes.size ≤ id.index) :
    event.after.scopeAt id = default ∨
      event.scopeKind? = some (event.after.scopeAt id).kind ∨
      ∃ lexical, event.frame? = some ((event.after.scopeAt id).data, lexical) ∧
        (event.after.scopeAt id).lexical = lexical := by
  have hnone {s : State} (hsize : s.scopes.size ≤ id.index) : s.scopeAt id = default := by
    simp [State.scopeAt, hsize]
  cases event with
  | finish x r => exact .inl (hnone hid)
  | start x m =>
    change m.scopes.size ≤ id.index at hid
    cases x with
    | update u =>
      cases u with
      | newScope scope =>
        simp only [after, Update.apply.eq_def, State.scopeAt_pushScope]
        split
        · exact .inr (.inl rfl)
        · exact .inl (hnone hid)
      | newFrame kind parent lexical held =>
        simp only [after, Update.apply.eq_def, State.scopeAt_pushScope]
        split
        · exact .inr (.inr ⟨lexical, rfl, rfl⟩)
        · exact .inl (hnone hid)
      | unlock scope name =>
        refine .inl (hnone ?_)
        simpa [after, Update.apply.eq_def] using hid
      | result v =>
        refine .inl (hnone ?_)
        simp only [after, Update.apply.eq_def]
        split <;> exact hid
      | allocate | object | link | names | newSymbol | global | position => exact .inl (hnone hid)
    | _ => exact .inl (hnone hid)

/-- **An event keeps all constants known**, if it is one of the log. -/
theorem State.KnowsConstants.after {l : Log} (h : event.machine.KnowsConstants l) (he : event ∈ l)
    (hkept : event.Kept e) : event.after.KnowsConstants l := by
  intro id name r howns hr hconstant
  rcases Nat.lt_or_ge id.index event.machine.scopes.size with hlt | hge
  · exact h.at_after hlt howns hr hconstant
  rcases event.scopeAt_after_of_size_le hge with hdefault | hkind | ⟨lexical, hframe, hlexical⟩
  · rw [hdefault] at howns
    cases howns
  · rw [hkept.ownsNames_eq_false hkind] at howns
    cases howns
  · exact ⟨event, he, lexical, hframe, r, hlexical ▸ hr, hconstant⟩

/-! ## 3. The value of a constant -/

/-- Whether a scope that owns its names holds a constant that is initialized with a value. -/
structure State.HasConstant (s : State) (scope : ScopeId) (name : String) (v : Value) : Prop where
  owns : (s.scopeAt scope).kind.ownsNames = true
  record : (s.scopeAt scope).record? name = some ⟨true, .constant⟩
  value : (s.objectAt (s.scopeAt scope).data).ownValue? name = some v

namespace State.HasConstant

variable {s s' : State} {scope : ScopeId} {name : String} {v : Value}

theorem congr (h : s.SameStore s') (hs : s.HasConstant scope name v) : s'.HasConstant scope name v := by
  refine ⟨?_, ?_, ?_⟩
  · rw [h.scopeAt]
    exact hs.owns
  · rw [h.scopeAt]
    exact hs.record
  · rw [h.scopeAt, h.objectAt]
    exact hs.value

/-- **An event keeps the value of a constant**, unless it sets its name. -/
theorem after (h : event.machine.HasConstant scope name v) (hkept : event.Kept e)
    (hclosed : e.Closed (event.machine.scopeAt scope).data)
    (hconstant : e.Constant (event.machine.scopeAt scope).data name)
    (hsets : ¬ event.Sets (event.machine.scopeAt scope).data name) :
    event.after.HasConstant scope name v ∧
      (event.after.scopeAt scope).data = (event.machine.scopeAt scope).data := by
  have hsame : (event.after.scopeAt scope).data = (event.machine.scopeAt scope).data ∧
      (event.after.scopeAt scope).kind = (event.machine.scopeAt scope).kind := by
    rcases event.scopeAt_after (State.index_lt_of_record? h.record) with hsame | ⟨name', -, hmarked⟩
    · rw [hsame]
      exact ⟨rfl, rfl⟩
    · rw [hmarked]
      exact ⟨Scope.data_markInitialized _ _, Scope.kind_markInitialized _ _⟩
  refine ⟨⟨hsame.2 ▸ h.owns, Event.initialized_after h.record, ?_⟩, hsame.1⟩
  obtain ⟨p, hp, hpv⟩ := Option.bind_eq_some_iff.mp h.value
  rw [hsame.1, Object.ownValue?, Event.own?_after hkept hclosed hconstant hp hsets]
  exact hpv

end State.HasConstant

/-- **A constant keeps its value along a log**, as long as nothing sets its name. -/
theorem Log.Leads.hasConstant {l : Log} {s s' : State} (h : Log.Leads s l s') {scope : ScopeId} {name : String}
    {v : Value} {id : ObjectId} (hs : s.HasConstant scope name v) (hid : (s.scopeAt scope).data = id)
    (hkept : ∀ event ∈ l, event.Kept e) (hclosed : e.Closed id) (hconstant : e.Constant id name)
    (hsets : ∀ event ∈ l, ¬ event.Sets id name) : s'.HasConstant scope name v := by
  refine (h.invariant (I := fun t => t.HasConstant scope name v ∧ (t.scopeAt scope).data = id) ?_ ?_ ⟨hs, hid⟩).1.1
  · intro t t' hsame ht
    exact ⟨ht.1.congr hsame, by rw [hsame.scopeAt]; exact ht.2⟩
  · rintro event he ⟨hevent, hdata⟩
    subst hdata
    exact hevent.after (hkept event he) hclosed hconstant (hsets event he)

/-! ## 4. Reading and copying constants -/

/-- What is looked for in an array is found as well among the entries that pass a test, if it passes the test itself. -/
theorem find?_filter_of_forall {α : Type} {p q : α → Bool} {l : Array α} (h : ∀ a ∈ l, q a = true → p a = true) :
    (l.filter p).find? q = l.find? q := by
  rw [Array.find?_filter, ← Array.find?_toList, ← Array.find?_toList]
  have hlist : ∀ a ∈ l.toList, q a = true → p a = true := fun a ha => h a (Array.mem_toList_iff.mp ha)
  generalize l.toList = list at hlist
  induction list with
  | nil => rfl
  | cons a rest ih =>
    obtain ⟨ha, hrest⟩ := List.forall_mem_cons.mp hlist
    have hsame : decide (p a = true ∧ q a = true) = q a := by
      cases hq : q a with
      | false => simp
      | true => simp [ha hq]
    rw [List.find?_cons, List.find?_cons, hsame, ih hrest]

/-- A copy of the names with values holds the same as the object of names. -/
theorem Object.HoldsNames.ownValue?_copy {o : Object} (h : o.HoldsNames) (name : String) :
    ({ properties := o.properties.filter fun entry => entry.1.name?.isSome && !entry.2.isAccessor } :
        Object).ownValue? name = o.ownValue? name := by
  have hcopy : ({ properties := o.properties.filter fun entry => entry.1.name?.isSome && !entry.2.isAccessor } :
      Object).HoldsNames := .ofEntries fun entry hentry => h.values entry (Array.mem_filter.mp hentry).1
  unfold ownValue?
  rw [hcopy.own?, h.own?, stored?, stored?, find?_filter_of_forall]
  intro entry hentry hsame
  rw [Key.eq_of_same_string hsame, h.values entry hentry]
  rfl

namespace State.HasConstant

variable {e : Embedding} {m : Machine} {s' : State} {scope : ScopeId} {name : String} {v : Value}

/-- The value of a constant is not hidden. -/
theorem run_hideGlobal (h : m.HasConstant scope name v) (hm : e.Mirrors m.toState s') (hsolid : ∀ id, e.Solid id)
    (hsuper : (m.scopeAt m.superScope).kind.ownsNames = true) (answers : Answers) :
    (Eval.hideGlobal v).run answers m = .ok v m := by
  obtain ⟨p, hp, hpv⟩ := Option.bind_eq_some_iff.mp h.value
  have hobject := hm.within_object (hm.holds_data (hsolid scope))
  have hown := Object.within_own? hobject (.string name)
  rw [hp] at hown
  have hv : Within e v := Property.within_value? (within_some.mp hown) v hpv
  cases v with
  | object id =>
    have hne : id ≠ (m.scopeAt m.superScope).data := by
      intro hsame
      exact e.apart (hsame ▸ hv) ((hm.within_scope (hsolid _)).closed hsuper)
    simp only [Eval.hideGlobal, Eval.run, if_neg hne]
  | _ => rfl

/-- A copy of a scope holds the same constants. -/
theorem run_forkScope (h : m.HasConstant scope name v) (hnames : (m.objectAt (m.scopeAt scope).data).HoldsNames)
    (answers : Answers) : ∃ m' : Machine,
      (Eval.forkScope scope).run answers m = .ok ⟨m.scopes.size⟩ m' ∧ m'.HasConstant ⟨m.scopes.size⟩ name v := by
  let held := (m.objectAt (m.scopeAt scope).data).properties.filter fun entry =>
    entry.1.name?.isSome && !entry.2.isAccessor
  refine ⟨_, rfl, ?_⟩
  change ((Update.newFrame .block (m.scopeAt scope).parent (m.scopeAt scope).lexical held).apply m.toState).2.HasConstant
    ⟨m.scopes.size⟩ name v
  have hscope : (((Update.newFrame .block (m.scopeAt scope).parent (m.scopeAt scope).lexical held).apply
      m.toState).2.scopeAt ⟨m.scopes.size⟩) =
        { data := ⟨m.heap.size⟩, parent := (m.scopeAt scope).parent.filter fun parent => parent.index < m.scopes.size,
          kind := .block, lexical := (m.scopeAt scope).lexical } := by
    rw [Update.apply, State.scopeAt_pushScope, if_pos rfl]
  refine ⟨by rw [hscope]; rfl, by rw [hscope]; exact h.record, ?_⟩
  rw [hscope]
  change (State.objectAt { m.toState with heap := m.heap.push { properties := held } } ⟨m.heap.size⟩).ownValue? name = _
  rw [State.objectAt_push, if_pos rfl]
  exact (hnames.ownValue?_copy name).trans h.value

end State.HasConstant

namespace HostCall

/-- **A constant keeps its value.** Let a host make calls on a grounded machine as in `names_hidden`, and let a scope
with an object of its own hold a constant that is initialized with a value, at some event on the way. Unless a
declaration sets the name in that object again, then at every later event

* the scope holds the constant with the same value;
* a name that resolves to it is read as this value, also for a call and for `typeof`;
* to assign that name, in any form of assignment, throws the error about a constant and changes nothing else;
* a copy of the scope for the next round of a loop holds the constant with the same value. -/
theorem constants_keep (calls : List HostCall) {m : Machine} (hm : m.Grounded)
    (hcalls : ∀ c ∈ calls, c.IsCompiled ∧ ∀ id ∈ c.addresses, ¬ (logAll calls m).HoldsNames id)
    {before between after : Log} {first last : Event}
    (hlog : logAll calls m = before ++ first :: (between ++ last :: after)) {scope : ScopeId} {name : String} {v : Value}
    (hfirst : first.machine.HasConstant scope name v)
    (hsets : ∀ event ∈ first :: between, ¬ event.Sets (first.machine.scopeAt scope).data name) :
    last.machine.HasConstant scope name v ∧
      (∀ position, last.machine.resolve name .use = .found scope →
        ((last.machine.scopeAt last.machine.superScope).kind.ownsNames = true → ∀ answers : Answers,
          (Eval.resolveValue name position).run answers last.machine = .ok (scope, v) last.machine ∧
            (Eval.readNameOrUndefined name position).run answers last.machine = .ok v last.machine) ∧
        ∀ w, (Eval.assignName name w position).Faults .constChange name position last.machine) ∧
      ∀ answers : Answers, ∃ m',
        (Eval.forkScope scope).run answers last.machine = .ok ⟨last.machine.scopes.size⟩ m' ∧
          m'.HasConstant ⟨last.machine.scopes.size⟩ name v := by
  obtain ⟨-, hkept, -⟩ := kept_logAll hm hcalls
  have hleads := leads_logAll calls m
  have hsolid (id : ScopeId) : (hindsight calls hm).Solid id := ⟨trivial, fun hclear => hclear⟩
  have hknown : first.machine.KnowsConstants (logAll calls m) := by
    refine (hleads.invariant (I := fun s => s.KnowsConstants (logAll calls m)) .congr ?_
      (State.knowsConstants_of_empty hm.scopes)).2 first (by simp [hlog])
    exact fun event he hevent => hevent.after he (hkept event he)
  have hconstant : (logAll calls m).HoldsConstant (first.machine.scopeAt scope).data name :=
    hknown scope name _ hfirst.owns hfirst.record rfl
  have hclosed : (logAll calls m).HoldsNames (first.machine.scopeAt scope).data := by
    obtain ⟨event, he, lexical, hframe, -⟩ := hconstant
    exact ⟨event, he, lexical, hframe⟩
  -- the part of the log from the first event up to the last one
  have hparts : logAll calls m = before ++ ((first :: between) ++ (last :: after)) := hlog
  rw [hparts] at hleads hkept
  obtain ⟨s, -, hrest⟩ := hleads.split
  obtain ⟨t, hbetween, hlast⟩ := hrest.split
  have hstart : s.HasConstant scope name v := hfirst.congr hbetween.1.symm
  have hend : t.HasConstant scope name v :=
    hbetween.hasConstant (e := hindsight calls hm) hstart (by rw [hbetween.1.scopeAt])
      (fun event he => hkept event (List.mem_append_right _ (List.mem_append_left _ he))) hclosed hconstant hsets
  have hnow : last.machine.HasConstant scope name v := hend.congr hlast.1
  obtain ⟨m', hmirrored⟩ := (hkept last (by simp)).mirrored
  have hnames := hmirrored.state.names ((hmirrored.state.within_scope (hsolid scope)).closed hnow.owns)
  refine ⟨hnow, fun position hresolve => ⟨fun hsuper answers => ?_, ?_⟩, fun answers => hnow.run_forkScope hnames answers⟩
  · have hread : (Eval.readFrom? scope name).run answers last.machine = .ok (some v) last.machine :=
      Eval.run_readFrom? hnow.value fun answers => hnow.run_hideGlobal hmirrored.state hsolid hsuper answers
    exact ⟨Eval.run_resolveValue hresolve hread, Eval.run_readNameOrUndefined hresolve hread⟩
  · exact fun w => Eval.faults_assignName_constant hresolve hnow.record w

/-- A machine with empty objects in the place of the intrinsic ones, and one for bindings. -/
def bareMachine : Machine :=
  { heap := Array.replicate 23 {}, bindings := ⟨22⟩ }

theorem bareMachine_grounded : bareMachine.Grounded where
  scopes := rfl
  intrinsic i := Nat.lt_succ_of_lt i.index_lt
  object o ho := by
    obtain rfl := Array.eq_of_mem_replicate ho
    nofun
  steady o ho := by
    obtain rfl := Array.eq_of_mem_replicate ho
    nofun
  registers := nofun
  globals := nofun
  rules := nofun
  bindings := by decide

/-- A program that reads its own constant. -/
def constantRun : List HostCall :=
  [.reset ⟨22⟩ { parser := some parse }, .evaluate (.text "const a = true; a")]

theorem constantRun_calls :
    ∀ c ∈ constantRun, c.IsCompiled ∧ ∀ id ∈ c.addresses, ¬ (logAll constantRun bareMachine).HoldsNames id := by
  have hbindings : ¬ (logAll constantRun bareMachine).HoldsNames ⟨22⟩ := fun hnames =>
    absurd ((leads_logAll constantRun bareMachine).size_le_of_holdsNames hnames) (by decide)
  exact List.forall_mem_cons.mpr ⟨⟨trivial, fun id hid => List.mem_singleton.mp hid ▸ hbindings⟩,
    List.forall_mem_cons.mpr ⟨⟨trivial, nofun⟩, nofun⟩⟩

/-- Whether the program's scope holds its constant at an event. -/
def holdsTrue (event : Event) : Bool :=
  (event.machine.scopeAt ⟨2⟩).kind.ownsNames &&
    (match (event.machine.scopeAt ⟨2⟩).record? "a" with
      | some ⟨true, .constant⟩ => true
      | _ => false) &&
    match (event.machine.objectAt (event.machine.scopeAt ⟨2⟩).data).ownValue? "a" with
      | some (.boolean b) => b
      | _ => false

theorem hasConstant_of_holdsTrue (h : holdsTrue event = true) : event.machine.HasConstant ⟨2⟩ "a" (.boolean true) := by
  unfold holdsTrue at h
  simp only [Bool.and_eq_true] at h
  obtain ⟨⟨howns, hrecord⟩, hvalue⟩ := h
  refine ⟨howns, ?_, ?_⟩
  · split at hrecord
    · assumption
    · cases hrecord
  · split at hvalue
    · rename_i b hb
      rw [hb, hvalue]
    · cases hvalue

/-- Whether an event does nothing to the names of a scope. -/
def leavesNames : Event → Bool
  | .start (.update (.names _ _)) _ => false
  | _ => true

theorem not_sets_of_leavesNames (h : leavesNames event = true) (id : ObjectId) (name : String) :
    ¬ event.Sets id name := by
  unfold Event.Sets
  split
  · cases h
  · exact not_false

/-- The program's constant, once it is initialized, is what it was at every later event. -/
theorem constants_keep_constantRun : ∃ before first between last after,
    logAll constantRun bareMachine = before ++ first :: (between ++ last :: after) ∧
      first.machine.HasConstant ⟨2⟩ "a" (.boolean true) ∧
      (∀ event ∈ first :: between, ¬ event.Sets (first.machine.scopeAt ⟨2⟩).data "a") ∧
      last.machine.HasConstant ⟨2⟩ "a" (.boolean true) := by
  have hcheck : (match (logAll constantRun bareMachine).drop 72 with
      | [] => false
      | first :: rest => holdsTrue first && (first :: rest).all leavesNames && !rest.isEmpty) = true := by
    decide +kernel
  have hlog := (List.take_append_drop 72 (logAll constantRun bareMachine)).symm
  generalize (logAll constantRun bareMachine).drop 72 = rest at hcheck hlog
  generalize (logAll constantRun bareMachine).take 72 = before at hlog
  match rest with
  | [] => cases hcheck
  | first :: rest =>
    simp only [Bool.and_eq_true, Bool.not_eq_true', List.isEmpty_eq_false_iff] at hcheck
    obtain ⟨⟨hfirst, hleaves⟩, hrest⟩ := hcheck
    have hends := List.dropLast_append_getLast hrest
    rw [← hends] at hlog hleaves
    have hheld := hasConstant_of_holdsTrue hfirst
    have hsets : ∀ event ∈ first :: rest.dropLast, ¬ event.Sets (first.machine.scopeAt ⟨2⟩).data "a" := fun event he =>
      not_sets_of_leavesNames (List.all_eq_true.mp hleaves event (List.mem_append_left [_] he)) _ _
    exact ⟨before, first, rest.dropLast, rest.getLast hrest, [], hlog, hheld, hsets,
      (constants_keep constantRun bareMachine_grounded constantRun_calls hlog hheld hsets).1⟩

end HostCall

end GuestScript
