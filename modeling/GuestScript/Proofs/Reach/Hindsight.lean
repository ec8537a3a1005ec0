import GuestScript.Proofs.Mirror.Realm
import GuestScript.Proofs.Reach.Address
import GuestScript.Proofs.Realm
import GuestScript.Proofs.Trail

/-!
# Embeddings in hindsight

Which objects hold the names of scopes can be seen when all is over: those that were made for a scope while the log
was written (`Log.HoldsNames`). So the log of any host calls gives an embedding that moves nothing, where these objects
are the closed ones and all others are open. It fits the log, because no address is given away twice.

A machine on which no script has run yet is *grounded* (`Machine.Grounded`). It mirrors itself along any such embedding,
and then so does all that follows (`HostCall.kept_logAll`): along any host calls, nothing that a script gets hold of
leads to an object that holds names.
-/

namespace GuestScript

/-! ## 1. Objects that hold names -/

/-- The object that an event makes to hold the names of a scope, with the lexical names among them. -/
def Event.frame? : Event → Option (ObjectId × List (String × LexicalRecord))
  | .start (.update (.newFrame _ _ lexical _)) m => some (⟨m.heap.size⟩, lexical)
  | _ => none

theorem Event.taken_of_frame {event : Event} {id : ObjectId} {lexical : List (String × LexicalRecord)}
    (h : event.frame? = some (id, lexical)) : event.taken? = some id := by
  unfold frame? at h
  split at h
  · cases h
    rfl
  · cases h

/-- Whether an object was made to hold the names of a scope. -/
def Log.HoldsNames (l : Log) (id : ObjectId) : Prop :=
  ∃ event ∈ l, ∃ lexical, event.frame? = some (id, lexical)

/-- Whether an object was made to hold the names of a scope, a constant among them. -/
def Log.HoldsConstant (l : Log) (id : ObjectId) (name : String) : Prop :=
  ∃ event ∈ l, ∃ lexical, event.frame? = some (id, lexical) ∧
    ∃ r : LexicalRecord, lexical.lookup name = some r ∧ r.kind = .constant

namespace Log

variable {s s' : State} {l : Log}

/-- The embedding that moves nothing and knows which objects hold names. -/
def embedding (l : Log) (h : ∀ i : Intrinsic, ¬ l.HoldsNames i.id) : Embedding where
  object id := id
  scope id := id
  serial n := n
  Open id := ¬ l.HoldsNames id
  Closed := l.HoldsNames
  Scoped _ := True
  Clear _ := False
  Sets _ := True
  Constant := l.HoldsConstant
  object_injective _ _ h := h
  scope_injective _ _ h := h
  serial_injective h := h
  apart h h' := h h'
  sets _ _ := trivial
  sets_parameter _ _ h := h
  intrinsic_open := h
  intrinsic_fixed _ := rfl

/-- What was made to hold names was not there before. -/
theorem Leads.size_le_of_holdsNames (h : Log.Leads s l s') {id : ObjectId} (hid : l.HoldsNames id) :
    s.heap.size ≤ id.index := by
  obtain ⟨event, he, lexical, hframe⟩ := hid
  exact (h.taken_bounds he (Event.taken_of_frame hframe)).1

/-- **The embedding in hindsight fits.** -/
theorem Leads.fits (h : Log.Leads s l s') (hi : ∀ i : Intrinsic, ¬ l.HoldsNames i.id) : Log.Fits (l.embedding hi) l := by
  intro event he
  cases event with
  | finish x r => trivial
  | start x m =>
    cases x with
    | update u =>
      cases u with
      | allocate o =>
        rintro ⟨event', he', lexical, hframe⟩
        have hsame := h.taken_unique he he' rfl (Event.taken_of_frame hframe)
        rw [← hsame] at hframe
        cases hframe
      | newFrame kind parent lexical held =>
        refine ⟨⟨_, he, lexical, rfl⟩, trivial, ?_⟩
        rintro name ⟨event', he', lexical', hframe, hconstant⟩
        have hsame := h.taken_unique he he' rfl (Event.taken_of_frame hframe)
        rw [← hsame] at hframe
        cases hframe
        exact hconstant
      | _ => trivial
    | _ => trivial

end Log

/-! ## 2. Embeddings that move nothing -/

/-- Whether an embedding moves nothing, and no scope is clear. -/
structure Embedding.Still (e : Embedding) : Prop where
  object : ∀ id, e.object id = id
  scope : ∀ id, e.scope id = id
  serial : ∀ n, e.serial n = n
  solid : ∀ id, ¬ e.Clear id

theorem Log.still_embedding (l : Log) (h : ∀ i : Intrinsic, ¬ l.HoldsNames i.id) : (l.embedding h).Still :=
  ⟨fun _ => rfl, fun _ => rfl, fun _ => rfl, fun _ h => h⟩

namespace State

variable {e : Embedding} {s : State}

/-- The state with all that it mentions moved. -/
def moved (e : Embedding) (s : State) : State :=
  { s with
    toRegisters := image e s.toRegisters, heap := s.heap.map (image e)
    realm := { s.realm with globals := image e s.realm.globals }
    rules := image e s.rules, bindings := e.object s.bindings
    superScope := e.scope s.superScope, globalScope := e.scope s.globalScope }

theorem objectAt_moved (id : ObjectId) : (s.moved e).objectAt id = image e (s.objectAt id) := by
  simp only [objectAt, moved, Array.getD_eq_getD_getElem?, Array.getElem?_map]
  cases s.heap[id.index]? with
  | none => exact Object.image_default.symm
  | some o => rfl

theorem scopeAt_of_empty (h : s.scopes = #[]) (id : ScopeId) : s.scopeAt id = default := by
  simp [scopeAt, h]

theorem ordered_of_empty (h : s.scopes = #[]) : s.Ordered := by
  intro id parent hparent
  rw [scopeAt_of_empty h] at hparent
  cases hparent

/-- What holds of every object on the heap and of an empty one holds at every address. -/
theorem forall_objectAt {P : Object → Prop} (hempty : P default) (h : ∀ o ∈ s.heap, P o) (id : ObjectId) :
    P (s.objectAt id) := by
  rw [objectAt, Array.getD_eq_getD_getElem?]
  cases hget : s.heap[id.index]? with
  | none => exact hempty
  | some o => exact h o (Array.mem_of_getElem? hget)

/-- A state without scopes is mirrored along an embedding that moves nothing, if all in it is within reach. -/
theorem mirrors_moved (he : e.Still) (hscopes : s.scopes = #[]) (hobject : ∀ o ∈ s.heap, Within e o)
    (hclosed : ∀ {id}, e.Closed id → s.heap.size ≤ id.index) (hregisters : Within e s.toRegisters)
    (hglobals : Within e s.realm.globals) (hrules : Within e s.rules) (hbindings : e.Open s.bindings)
    (hsuper : e.Scoped s.superScope) (hglobal : e.Scoped s.globalScope) : e.Mirrors s (s.moved e) where
  within_registers := hregisters
  registers := rfl
  within_object {id} _ := forall_objectAt Object.within_default hobject id
  object {id} _ := by rw [he.object, objectAt_moved]
  names {id} hid := by
    rw [objectAt_of_size_le (hclosed hid)]
    exact ⟨rfl, rfl, rfl, by simp [default]⟩
  object_lt {id} _ := by rw [he.object, moved, Array.size_map]
  object_next k := by rw [he.object, moved, Array.size_map]
  within_scope {id} _ := by
    rw [scopeAt_of_empty hscopes]
    exact ⟨nofun, fun _ => e.intrinsic_open .objectPrototype, nofun, within_none⟩
  scope {id} _ := by
    rw [scopeAt_of_empty (s := s.moved e) hscopes, scopeAt_of_empty hscopes]
    exact congrArg (Scope.mk · none .global []) (he.object ⟨0⟩).symm
  clear {id} hclear := absurd hclear (he.solid id)
  scope_lt {id} _ := by rw [he.scope, moved]
  scope_next k := he.scope _
  ordered := ordered_of_empty hscopes
  ordered' := ordered_of_empty (s := s.moved e) hscopes
  serial_next k := he.serial _
  within_globals := hglobals
  globals := rfl
  label {id} _ := by rw [he.object, moved]; rfl
  within_rules := hrules
  rules := rfl
  within_bindings := hbindings
  bindings := rfl
  within_superScope := ⟨hsuper, he.solid _⟩
  superScope := rfl
  within_globalScope := hglobal
  globalScope := rfl
  lastPosition := rfl

end State

/-! ## 3. Machines before any script -/

/-- Whether a state mentions objects on its heap only, and holds no scopes. -/
structure State.Grounded (s : State) : Prop where
  scopes : s.scopes = #[]
  intrinsic : ∀ i : Intrinsic, i.id.index < s.heap.size
  object : ∀ o ∈ s.heap, ∀ id ∈ o.addresses, id.index < s.heap.size
  steady : ∀ o ∈ s.heap, ∀ c ∈ o.callable, c.Steady
  registers : ∀ id ∈ s.toRegisters.addresses, id.index < s.heap.size
  globals : ∀ entry ∈ s.realm.globals, ∀ id ∈ entry.2.addresses, id.index < s.heap.size
  rules : ∀ id ∈ s.rules.addresses, id.index < s.heap.size
  bindings : s.bindings.index < s.heap.size

namespace State.Grounded

variable {e : Embedding} {s : State}

/-- A grounded state is mirrored along an embedding that moves nothing and takes any steady code, if what is on its heap
is open and no more than that. -/
theorem mirrors_moved (h : s.Grounded) (he : e.Still) (hscoped : ∀ id, e.Scoped id) (hsets : e.Sets = fun _ => True)
    (hopen : ∀ id : ObjectId, id.index < s.heap.size → e.Open id)
    (hclosed : ∀ {id}, e.Closed id → s.heap.size ≤ id.index) : e.Mirrors s (s.moved e) := by
  refine State.mirrors_moved he h.scopes ?_ hclosed ?_ ?_ ?_ (hopen _ h.bindings) (hscoped _) (hscoped _)
  · intro o ho
    have hfirm : ∀ c ∈ o.callable, c.Firm e.Sets := hsets ▸ h.steady o ho
    exact Object.within_of_open (fun _ _ id _ => hscoped id) hfirm fun id hid => hopen id (h.object o ho id hid)
  · exact Registers.within_of_open (hscoped _) fun id hid => hopen id (h.registers id hid)
  · intro entry hentry
    exact ⟨trivial, entry.2.within_iff.mpr fun id hid => hopen id (h.globals entry hentry id hid)⟩
  · exact Rules.within_of_open fun id hid => hopen id (h.rules id hid)

/-- A host may put an object of its own on the heap. -/
theorem push (h : s.Grounded) {o : Object} (ho : ∀ id ∈ o.addresses, id.index ≤ s.heap.size)
    (hsteady : ∀ c ∈ o.callable, c.Steady) : State.Grounded { s with heap := s.heap.push o } := by
  have hsize : (s.heap.push o).size = s.heap.size + 1 := Array.size_push o
  have hlt {i : Nat} (hi : i < s.heap.size) : i < (s.heap.push o).size := by omega
  refine ⟨h.scopes, fun i => hlt (h.intrinsic i), ?_, ?_, fun id hid => hlt (h.registers id hid),
    fun entry hentry id hid => hlt (h.globals entry hentry id hid), fun id hid => hlt (h.rules id hid), hlt h.bindings⟩
  · intro o' ho' id hid
    rcases Array.mem_push.mp ho' with hold | rfl
    · exact hlt (h.object o' hold id hid)
    · exact Nat.lt_of_le_of_lt (ho id hid) (hsize ▸ Nat.lt_succ_self _)
  · intro o' ho'
    rcases Array.mem_push.mp ho' with hold | rfl
    · exact h.steady o' hold
    · exact hsteady

end State.Grounded

/-! ### The first machine -/

/-- The embedding that moves nothing, where the addresses below a bound are open. -/
def Embedding.below (bound : Nat) (h : ∀ i : Intrinsic, i.id.index < bound) : Embedding where
  object id := id
  scope id := id
  serial n := n
  Open id := id.index < bound
  Closed _ := False
  Scoped _ := True
  Clear _ := False
  Sets _ := True
  Constant _ _ := False
  object_injective _ _ h := h
  scope_injective _ _ h := h
  serial_injective h := h
  apart _ h := h
  sets _ _ := trivial
  sets_parameter _ _ h := h
  intrinsic_open := h
  intrinsic_fixed _ := rfl

theorem Embedding.still_below (bound : Nat) (h : ∀ i : Intrinsic, i.id.index < bound) : (below bound h).Still :=
  ⟨fun _ => rfl, fun _ => rfl, fun _ => rfl, fun _ h => h⟩

/-- The scopes stay as they are as long as none is opened and no name in one is initialized. -/
theorem Event.scopes_after {event : Event} (h : ¬ event.OpensScope) (hempty : event.machine.scopes = #[]) :
    event.after.scopes = #[] := by
  cases event with
  | finish x r => exact hempty
  | start x m =>
    cases x with
    | update u =>
      cases u with
      | newScope | newFrame => exact absurd trivial h
      | unlock scope name =>
        have hscopes : m.scopes = #[] := hempty
        simp [after, Update.apply.eq_def, hscopes]
      | result v =>
        simp only [after, Update.apply.eq_def]
        split <;> exact hempty
      | _ => exact hempty
    | _ => exact hempty

namespace Eval.Builds

variable {α : Type} {x : Eval α}

/-- What builds objects opens no scope. -/
theorem not_opensScope {answers : Answers} {logs : RequestLogs} (hx : x.Builds) (m : Machine) :
    ∀ event ∈ x.log answers logs m, ¬ event.OpensScope := by
  induction x generalizing m with
  | done a => exact forall_mem_log answers logs m id (fun _ he => nomatch he) id
  | update u =>
    refine forall_mem_log answers logs m ?_ (fun _ he => nomatch he) id
    cases u with
    | newScope | newFrame => exact hx.elim
    | _ => exact id
  | andThen x f ihx ihf =>
    refine forall_mem_log answers logs m id ?_ id
    rw [inside_andThen]
    intro event he
    rcases List.mem_append.mp he with he | he
    · exact ihx hx.1 m event he
    · split at he
      · exact ihf _ (hx.2 _) _ event he
      · cases he
  | _ => exact hx.elim

theorem scopes_eq (hx : x.Builds) {m : Machine} (hend : finalMachine (x.runOn {}) = m) : m.scopes = #[] := by
  have hleads := Eval.leads_logOn x {}
  rw [hend] at hleads
  refine (hleads.invariant (I := fun s => s.scopes = #[]) (fun hsame h => hsame.scopes.trans h) ?_ rfl).1
  exact fun event he => event.scopes_after (hx.not_opensScope {} event he)

/-- What builds objects fits where all of them are open. -/
theorem fits (hx : x.Builds) {m m' : Machine} (hend : finalMachine (x.runOn m) = m') {e : Embedding}
    (hopen : ∀ id : ObjectId, id.index < m'.heap.size → e.Open id) : (x.logOn m).Fits e := by
  intro event he
  have hleads := Eval.leads_logOn x m
  rw [hend] at hleads
  have hopens := hx.not_opensScope m event he
  cases event with
  | finish x r => trivial
  | start x m =>
    cases x with
    | update u =>
      cases u with
      | allocate o => exact hopen _ (hleads.taken_bounds he rfl).2
      | newScope | newFrame => exact absurd trivial hopens
      | _ => trivial
    | _ => trivial

/-- What is built on an empty machine is mirrored along an embedding that moves nothing, if all of it is open. -/
theorem mirrors_end [Carried α] (hx : x.Builds) {e : Embedding} (htracks : x.Tracks e x) (he : e.Still) {m : Machine}
    (hend : finalMachine (x.runOn {}) = m) (hscoped : e.Scoped ⟨0⟩)
    (hopen : ∀ id : ObjectId, id.index < m.heap.size → e.Open id) (hclosed : ∀ id, ¬ e.Closed id) :
    ∃ s', e.Mirrors m.toState s' := by
  have hstart : e.Reflects {} { toState := State.moved e {} } :=
    ⟨State.mirrors_moved he rfl (by simp) (fun h => absurd h (hclosed _)) ⟨hscoped, trivial, trivial, within_none, within_nil⟩
      within_nil ⟨within_none, trivial⟩ (e.intrinsic_open .objectPrototype) hscoped hscoped, rfl, rfl⟩
  have hrelates := (htracks.mirrored (answers_mirrored e nestingLimit) hstart).relates (hx.fits hend hopen)
  have hstate := hrelates.final.state
  change e.Mirrors (finalMachine (x.runOn {})).toState _ at hstate
  rw [hend] at hstate
  exact ⟨_, hstate⟩

/-- **What is built on an empty machine is grounded**, if it is the same on mirrors and begins with the intrinsic
objects. -/
theorem grounded [Carried α] (hx : x.Builds) (htracks : ∀ e : Embedding, x.Tracks e x) {m : Machine}
    (hend : finalMachine (x.runOn {}) = m) (hintrinsic : ∀ i : Intrinsic, i.id.index < m.heap.size) : m.Grounded := by
  let e := Embedding.below m.heap.size hintrinsic
  obtain ⟨s', hstate⟩ := hx.mirrors_end (htracks e) (Embedding.still_below _ _) hend trivial (fun _ h => h) fun _ h => h
  have hobject (o : Object) (ho : o ∈ m.heap) : Within e o := by
    obtain ⟨i, hi, rfl⟩ := Array.mem_iff_getElem.mp ho
    have hat : m.objectAt ⟨i⟩ = m.heap[i] := by simp [State.objectAt, hi]
    rw [← hat]
    exact hstate.within_object (.inl hi)
  exact {
    scopes := hx.scopes_eq hend
    intrinsic := hintrinsic
    object := fun o ho => Object.open_of_within (hobject o ho)
    steady := fun o ho c hc => Callable.firm_of_within ((hobject o ho).callable c hc)
    registers := Registers.open_of_within hstate.within_registers
    globals := fun entry hentry => entry.2.within_iff.mp (hstate.within_globals entry hentry).2
    rules := Rules.open_of_within hstate.within_rules
    bindings := hstate.within_bindings }

end Eval.Builds

/-- An intrinsic object has one of the first addresses. -/
theorem Intrinsic.index_lt (i : Intrinsic) : i.id.index < all.length := by
  cases i with
  | errorPrototype kind => cases kind <;> decide
  | collectionPrototype kind => cases kind <;> decide
  | _ => decide

namespace Machine

/-- Objects that are allocated one after the other are all on the heap. -/
theorem run_allocateAll (answers : Answers) : ∀ (l : List Intrinsic) (m : Machine), ∃ m' : Machine,
    Eval.run answers (l.forM fun i => discard (Eval.allocate i.object)) m = .ok () m' ∧
      m'.heap.size = m.heap.size + l.length
  | [], m => ⟨m, rfl, rfl⟩
  | i :: l, m => by
    obtain ⟨m', hrun, hsize⟩ := run_allocateAll answers l { m with heap := m.heap.push i.object }
    refine ⟨m', hrun, ?_⟩
    rw [hsize, Array.size_push, List.length_cons]
    omega

/-- The intrinsic objects are made first. -/
theorem length_all_le_size {rest : Unit → Eval Unit} {m : Machine}
    (hend : finalMachine (((Intrinsic.all.forM fun i => discard (Eval.allocate i.object)) >>= rest).runOn {}) = m) :
    Intrinsic.all.length ≤ m.heap.size := by
  obtain ⟨m', hrun, hsize⟩ := run_allocateAll (Eval.answers nestingLimit) Intrinsic.all {}
  have hrest := (Eval.leads_logOn (rest ()) m').size_le.1
  have hsame : Eval.runOn ((Intrinsic.all.forM fun i => discard (Eval.allocate i.object)) >>= rest) {} =
      (rest ()).runOn m' := by
    simp only [Eval.runOn, bind, Eval.run, hrun]
  rw [← hend, hsame]
  refine Nat.le_trans ?_ hrest
  rw [hsize]
  exact Nat.le_add_left _ _

theorem grounded_sealed {m : Machine} (hbuilt : finalMachine (Eval.installAll.runOn {}) = m) :
    m.sealed.Grounded := by
  have hsize : Intrinsic.all.length ≤ m.heap.size := length_all_le_size hbuilt
  have hintrinsic (i : Intrinsic) : i.id.index < m.heap.size := Nat.lt_of_lt_of_le i.index_lt hsize
  have hm := Eval.builds_installAll.grounded (fun _ => Eval.tracks_installAll) hbuilt hintrinsic
  exact ⟨hm.scopes, hm.intrinsic, hm.object, hm.steady, hm.registers, hm.globals, hm.rules, hm.bindings⟩

/-- **The first machine is grounded.** -/
theorem initial_grounded : initial.Grounded := by
  unfold initial
  exact grounded_sealed rfl

end Machine

/-! ## 4. Host calls on a grounded machine -/

namespace HostCall

variable {calls : List HostCall} {m : Machine}

theorem not_holdsNames_intrinsic (hm : m.Grounded) (i : Intrinsic) : ¬ (logAll calls m).HoldsNames i.id := by
  intro hi
  have hsize := (leads_logAll calls m).size_le_of_holdsNames hi
  exact absurd (hm.intrinsic i) (Nat.not_lt.mpr hsize)

/-- The embedding that moves nothing and knows which objects the scopes of some host calls hold their names in. -/
def hindsight (calls : List HostCall) (hm : m.Grounded) : Embedding :=
  (logAll calls m).embedding (not_holdsNames_intrinsic hm)

/-- In hindsight a machine is mirrored from the start on: a host that runs compiled programs only and hands in no object
that holds names hands in what corresponds, and whatever is allocated has its place. -/
theorem reflects_hindsight (hm : m.Grounded)
    (hcalls : ∀ c ∈ calls, c.IsCompiled ∧ ∀ id ∈ c.addresses, ¬ (logAll calls m).HoldsNames id) :
    Within (hindsight calls hm) calls ∧
      (hindsight calls hm).Reflects m { m with toState := m.toState.moved (hindsight calls hm) } ∧
      (logAll calls m).Fits (hindsight calls hm) := by
  have hleads := leads_logAll calls m
  refine ⟨fun c hc => within_of_open (hcalls c hc).1 (hcalls c hc).2, ?_, hleads.fits _⟩
  refine ⟨hm.mirrors_moved ((logAll calls m).still_embedding _) (fun _ => trivial) rfl ?_ fun hid => hleads.size_le_of_holdsNames hid, rfl, rfl⟩
  exact fun id hlt hid => absurd hlt (Nat.not_lt.mpr (hleads.size_le_of_holdsNames hid))

/-- **Host calls keep within reach**, from a grounded machine on: a host that runs compiled programs only, and that
hands in no object that holds names, gets none, and nothing that happens on the way makes use of one. -/
theorem kept_logAll (hm : m.Grounded)
    (hcalls : ∀ c ∈ calls, c.IsCompiled ∧ ∀ id ∈ c.addresses, ¬ (logAll calls m).HoldsNames id) :
    (∀ r ∈ outcomes calls m, ∃ r',
        (hindsight calls hm).Relates (Within (hindsight calls hm)) (image (hindsight calls hm)) r r') ∧
      (∀ event ∈ logAll calls m, event.Kept (hindsight calls hm)) ∧
      ∃ m', (hindsight calls hm).Reflects (performAll calls m) m' := by
  obtain ⟨hwithin, hstart, hfits⟩ := reflects_hindsight hm hcalls
  obtain ⟨houtcomes, hkept, hlast⟩ := mirrored_all hwithin hstart hfits
  refine ⟨fun r hr => ?_, hkept, _, hlast⟩
  obtain ⟨hlength, hat⟩ := List.forall₂_iff_get.mp houtcomes
  obtain ⟨i, rfl⟩ := List.get_of_mem hr
  exact ⟨_, hat i i.isLt (hlength ▸ i.isLt)⟩

end HostCall

end GuestScript
