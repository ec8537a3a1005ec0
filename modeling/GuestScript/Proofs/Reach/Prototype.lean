import GuestScript.Proofs.Object.Elements
import GuestScript.Proofs.Reach.Frozen

/-!
# Prototypes

Objects are linked to their prototypes. The link of an object that is there changes in one way only: by the change that
`Object.setPrototypeOf` makes, which looks for a circle first (`HostCall.prototypes_linked`). The search gives up after a
fixed number of objects. As long as no chain is longer than that when a link is changed, no chain ever comes back to
where it began, and the search finds an object exactly if it is on the chain.
-/

namespace GuestScript

/-! ## 1. Chains -/

namespace State

/-- Whether an object is on the chain of prototypes of another one. -/
inductive Inherits (s : State) : ObjectId → ObjectId → Prop where
  | link {id p : ObjectId} (h : (s.objectAt id).prototype = some p) : Inherits s id p
  | step {id q p : ObjectId} (h : (s.objectAt id).prototype = some q) (hq : Inherits s q p) : Inherits s id p

/-- Whether no chain comes back to where it began. -/
def Acyclic (s : State) : Prop :=
  ∀ id, ¬ s.Inherits id id

/-- Whether a chain ends within a number of objects. -/
def endsWithin (s : State) : Nat → Option ObjectId → Bool
  | _, none => true
  | 0, some _ => false
  | n + 1, some id => s.endsWithin n (s.objectAt id).prototype

variable {s s' : State} {id p q : ObjectId}

theorem Inherits.trans (h : s.Inherits id p) (h' : s.Inherits p q) : s.Inherits id q := by
  induction h with
  | link h => exact .step h h'
  | step h _ ih => exact .step h (ih h')

/-- The search finds an object in front of the end of a chain, and nothing else. -/
theorem onChain_iff : ∀ {n : Nat} {start : Option ObjectId}, s.endsWithin n start = true →
    (s.onChain p n start = true ↔ ∃ first, start = some first ∧ (first = p ∨ s.Inherits first p))
  | 0, none, _ | _ + 1, none, _ => by simp [onChain]
  | n + 1, some first, h => by
    rw [onChain, Bool.or_eq_true, decide_eq_true_eq, onChain_iff (n := n) h]
    constructor
    · rintro (hsame | ⟨next, hnext, rfl | hrest⟩)
      · exact ⟨first, rfl, .inl hsame⟩
      · exact ⟨first, rfl, .inr (.link hnext)⟩
      · exact ⟨first, rfl, .inr (.step hnext hrest)⟩
    · rintro ⟨_, hfirst, hsame | hrest⟩
      · exact .inl ((Option.some.inj hfirst).trans hsame)
      · cases hfirst
        cases hrest with
        | link hnext => exact .inr ⟨_, hnext, .inl rfl⟩
        | step hnext hrest => exact .inr ⟨_, hnext, .inr hrest⟩

/-- **The search is exact** on chains that end within its bound. -/
theorem inheritsFrom_iff (h : s.endsWithin chainLimit (s.objectAt id).prototype = true) :
    s.inheritsFrom id p = true ↔ s.Inherits id p := by
  rw [inheritsFrom, onChain_iff h]
  constructor
  · rintro ⟨first, hfirst, rfl | hrest⟩
    · exact .link hfirst
    · exact .step hfirst hrest
  · intro hinherits
    cases hinherits with
    | link hfirst => exact ⟨_, hfirst, .inl rfl⟩
    | step hfirst hrest => exact ⟨_, hfirst, .inr hrest⟩

/-- All links stay as they are. -/
def SameLinks (s s' : State) : Prop :=
  ∀ id, (s'.objectAt id).prototype = (s.objectAt id).prototype

theorem SameLinks.inherits (h : s.SameLinks s') (hinherits : s'.Inherits id p) : s.Inherits id p := by
  induction hinherits with
  | link hp => exact .link ((h _).symm.trans hp)
  | step hq _ ih => exact .step ((h _).symm.trans hq) ih

theorem SameLinks.acyclic (h : s.SameLinks s') (hs : s.Acyclic) : s'.Acyclic :=
  fun id hinherits => hs id (h.inherits hinherits)

/-- One object gets another link, and the other links stay as they are. -/
structure Relinks (s s' : State) (id : ObjectId) (prototype : Option ObjectId) : Prop where
  here : (s'.objectAt id).prototype = prototype
  elsewhere : ∀ other, other ≠ id → (s'.objectAt other).prototype = (s.objectAt other).prototype

namespace Relinks

variable {prototype : Option ObjectId}

/-- What is on a chain after a link has changed was on it before, or the chain runs through that link. -/
theorem inherits (h : s.Relinks s' id prototype) (hfree : ∀ p ∈ prototype, p ≠ id ∧ ¬ s.Inherits p id) {x y : ObjectId}
    (hinherits : s'.Inherits x y) :
    s.Inherits x y ∨ ∃ p ∈ prototype, (x = id ∨ s.Inherits x id) ∧ (p = y ∨ s.Inherits p y) := by
  have hlink {x y : ObjectId} (hxy : (s'.objectAt x).prototype = some y) :
      (x = id ∧ y ∈ prototype) ∨ (s.objectAt x).prototype = some y := by
    by_cases hx : x = id
    · subst hx
      exact .inl ⟨rfl, h.here.symm.trans hxy⟩
    · exact .inr ((h.elsewhere x hx).symm.trans hxy)
  induction hinherits with
  | link hxy =>
    rcases hlink hxy with ⟨hx, hy⟩ | hxy
    · exact .inr ⟨_, hy, .inl hx, .inl rfl⟩
    · exact .inl (.link hxy)
  | step hxq _ ih =>
    rcases hlink hxq with ⟨hx, hq⟩ | hxq
    · rcases ih with hqy | ⟨p, hp, hid, -⟩
      · exact .inr ⟨_, hq, .inl hx, .inr hqy⟩
      · exact (hid.elim (hfree _ hq).1 (hfree _ hq).2).elim
    · rcases ih with hqy | ⟨p, hp, hid, hy⟩
      · exact .inl (.step hxq hqy)
      · refine .inr ⟨p, hp, .inr ?_, hy⟩
        exact hid.elim (fun hsame => .link (hsame ▸ hxq)) fun hid => .step hxq hid

/-- **A link to an object that does not inherit from the linked one closes no circle.** -/
theorem acyclic (h : s.Relinks s' id prototype) (hfree : ∀ p ∈ prototype, p ≠ id ∧ ¬ s.Inherits p id)
    (hs : s.Acyclic) : s'.Acyclic := by
  intro x hinherits
  rcases h.inherits hfree hinherits with hx | ⟨p, hp, hid, hx⟩
  · exact hs x hx
  · obtain ⟨hne, hnot⟩ := hfree p hp
    rcases hid with rfl | hid <;> rcases hx with rfl | hx
    · exact hne rfl
    · exact hnot hx
    · exact hnot hid
    · exact hnot (hx.trans hid)

end Relinks

end State

/-! ## 2. What a change does to links -/

namespace Object

theorem prototype_of_rest {o o' : Object}
    (h : ∃ properties elements, o' = { o with properties := properties, elements := elements }) :
    o'.prototype = o.prototype := by
  obtain ⟨properties, elements, rfl⟩ := h
  rfl

/-- No change of a single object touches its link. -/
theorem Written.prototype {α : Type} {f : Object → Object × α} (hf : Written f) (o : Object) :
    (f o).1.prototype = o.prototype := by
  cases hf with
  | asked hf =>
    cases hf with
    | define key d => exact prototype_of_rest (o.define_rest key d)
    | delete key => exact prototype_of_rest (o.delete_rest key)
    | elements f => exact prototype_of_rest (o.changeElements_rest f)
    | freeze | close | clear | time t => rfl
    | entries hf => rw [(hf o).rest]
  | setUp hg hf => rw [hf, hg.prototype]

theorem Declares.prototype {f : Object → Object} (hf : Declares f) (o : Object) : (f o).prototype = o.prototype := by
  cases hf with
  | set name v => exact prototype_insert o name _
  | add name =>
    dsimp only
    split
    · rfl
    · exact prototype_insert o name _

end Object

namespace Event

/-- Whether an event is the change of an object's link that `Object.setPrototypeOf` makes. -/
def Links (id : ObjectId) : Event → Prop
  | .start (.update (.link id' _)) _ => id' = id
  | _ => False

/-- Whether the chain behind a new link, if the event makes one, is not too long for the search. -/
def linksShort : Event → Bool
  | .start (.update (.link _ prototype)) m =>
    prototype.all fun p => m.endsWithin State.chainLimit (m.objectAt p).prototype
  | _ => true

end Event

namespace State

variable {s : State} {id : ObjectId}

/-- A change of one object that leaves its link leaves all links. -/
theorem sameLinks_changeObject {α : Type} {f : Object → Object × α}
    (hf : (f (s.objectAt id)).1.prototype = (s.objectAt id).prototype) : s.SameLinks (s.changeObject id f).2 := by
  intro other
  rw [changeObject_eq, objectAt_setObject]
  split
  · rename_i h
    rw [h.1]
    exact hf
  · rfl

/-- A new object is linked, and all other links stay as they are. -/
theorem relinks_push (s : State) (o : Object) :
    s.Relinks { s with heap := s.heap.push o } ⟨s.heap.size⟩ o.prototype where
  here := by rw [objectAt_push, if_pos rfl]
  elsewhere other hne := by
    rw [objectAt_push, if_neg]
    exact fun hsize => hne (congrArg ObjectId.mk hsize)

/-- Whether all links lead to objects that are there. -/
def Linked (s : State) : Prop :=
  ∀ id p, (s.objectAt id).prototype = some p → p.index < s.heap.size

theorem Linked.index_lt (h : s.Linked) {p : ObjectId} (hinherits : s.Inherits id p) : p.index < s.heap.size := by
  induction hinherits with
  | link hp => exact h _ _ hp
  | step _ _ ih => exact ih

/-- In a well-formed state all links lead to objects that are there. -/
theorem WellFormed.linked (h : s.WellFormed) : s.Linked := by
  intro id p hp
  rcases Nat.lt_or_ge id.index s.heap.size with hlt | hge
  · refine (h.objects p ?_).1
    have hmem : p ∈ (s.objectAt id).addresses := by simp [Object.addresses, hp]
    simp only [addresses, List.mem_cons, List.mem_append, List.mem_flatMap]
    exact .inr (.inl (.inr ⟨_, Array.mem_toList_iff.mpr (mem_objectAt hlt), hmem⟩))
  · rw [objectAt_of_size_le hge] at hp
    cases hp

/-- A link that the search does not refuse leads to another object, which does not inherit from the linked one. -/
theorem free_of_closesCircle {prototype : Option ObjectId} (h : s.closesCircle id prototype = false)
    (hshort : (prototype.all fun p => s.endsWithin chainLimit (s.objectAt p).prototype) = true) :
    ∀ p ∈ prototype, p ≠ id ∧ ¬ s.Inherits p id := by
  rintro p rfl
  simp only [closesCircle, Option.any_some, Bool.or_eq_false_iff, decide_eq_false_iff_not] at h
  refine ⟨h.1, fun hinherits => ?_⟩
  rw [(inheritsFrom_iff hshort).mpr hinherits] at h
  cases h.2

end State

/-! ## 3. Events -/

namespace Event

variable {e : Embedding} {event : Event}

/-- **What an event does to links**: nothing, or it makes a new object with a link, or it is a change of a link that
closes no circle as far as the search goes. -/
theorem links_after (h : event.Allowed e) :
    event.machine.toState.SameLinks event.after ∨
      (∃ o : Object, Within e o ∧
        event.machine.toState.Relinks event.after ⟨event.machine.heap.size⟩ o.prototype) ∨
      ∃ id prototype m, event = .start (.update (.link id prototype)) m ∧ m.closesCircle id prototype = false ∧
        m.toState.Relinks event.after id prototype := by
  cases event with
  | finish x r => exact .inl fun _ => rfl
  | start x m =>
    cases x with
    | update u =>
      change m.toState.SameLinks (u.apply m.toState).2 ∨ (∃ o : Object, _ ∧ m.toState.Relinks (u.apply m.toState).2 _ _) ∨
        ∃ id prototype m', _ ∧ _ ∧ State.Relinks _ (u.apply m.toState).2 _ _
      obtain ⟨P, g, u', hu⟩ := h
      cases hu with
      | allocate ho => exact .inr (.inl ⟨_, ho, m.relinks_push _⟩)
      | newFrame hkind hparent hheld hvalues =>
        rename_i held
        have hpushed := m.relinks_push { properties := held }
        exact .inr (.inl ⟨{}, Object.within_default, hpushed.here, hpushed.elsewhere⟩)
      | object hid hw hf => exact .inl (State.sameLinks_changeObject (hw.prototype _))
      | closedObject hid hw hf hnames => exact .inl (State.sameLinks_changeObject (hw.prototype _))
      | names hscope hf hdeclares => exact .inl (State.sameLinks_changeObject (hdeclares.prototype _))
      | link hid hprototype =>
        rename_i id prototype
        cases hcloses : m.closesCircle id prototype with
        | true =>
          refine .inl ?_
          simp only [Update.apply.eq_def, hcloses]
          exact State.sameLinks_changeObject rfl
        | false =>
          rcases Nat.lt_or_ge id.index m.heap.size with hlt | hge
          · refine .inr (.inr ⟨id, prototype, m, rfl, hcloses, ?_, fun other hne => ?_⟩)
            · rw [Update.apply, State.objectAt_changeObject hlt, hcloses]
              rfl
            · rw [Update.apply, State.objectAt_changeObject_of_ne _ hne]
          · refine .inl fun other => ?_
            rw [Update.apply, State.changeObject_eq, State.objectAt_setObject, if_neg fun h => Nat.not_lt.mpr hge h.2]
      | result hv =>
        refine .inl fun other => ?_
        rw [Update.apply]
        split <;> rfl
      | newScope | unlock | newSymbol | global | position => exact .inl fun _ => rfl
    | _ => exact .inl fun _ => rfl

/-- The link of an object that is there stays as it is, unless the event changes it. -/
theorem prototype_after (h : event.Allowed e) {id : ObjectId} (hid : id.index < event.machine.heap.size)
    (hlinks : ¬ event.Links id) : (event.after.objectAt id).prototype = (event.machine.objectAt id).prototype := by
  rcases links_after h with hsame | ⟨o, -, hpush⟩ | ⟨id', prototype, m, rfl, -, hlink⟩
  · exact hsame id
  · refine hpush.elsewhere id fun hnew => ?_
    rw [hnew] at hid
    exact Nat.lt_irrefl _ hid
  · exact hlink.elsewhere id fun hsame => hlinks hsame.symm

/-- **An event closes no circle**, if the search for one reaches the end of the chain. -/
theorem acyclic_after (h : event.Allowed e) (hopen : ∀ id, e.Open id → id.index < event.machine.heap.size)
    (hlinked : event.machine.Linked) (hshort : event.linksShort = true) (hs : event.machine.Acyclic) :
    event.after.Acyclic := by
  rcases links_after h with hsame | ⟨o, ho, hpush⟩ | ⟨id', prototype, m, rfl, hcloses, hlink⟩
  · exact hsame.acyclic hs
  · refine hpush.acyclic (fun p hp => ⟨fun hnew => ?_, fun hinherits => ?_⟩) hs
    · have hlt := hopen p (ho.prototype p hp)
      rw [hnew] at hlt
      exact Nat.lt_irrefl _ hlt
    · exact Nat.lt_irrefl _ (hlinked.index_lt hinherits)
  · exact hlink.acyclic (State.free_of_closesCircle hcloses hshort) hs

end Event

/-! ## 4. Host calls -/

/-- `Object.setPrototypeOf` links an object as it is asked to, or it fails. -/
theorem Eval.prototype_setPrototype {answers : Answers} {m m' : Machine} {id : ObjectId} {prototype : Option ObjectId}
    (hid : id.index < m.heap.size) (h : (setPrototype id prototype).run answers m = .ok () m') :
    m.closesCircle id prototype = false ∧ (m'.objectAt id).prototype = prototype := by
  obtain ⟨_, m₁, hmutable, hrest⟩ := run_bind_ok h
  rw [machine_checkMutable hmutable] at hrest
  obtain ⟨linked, m₂, hlink, hlast⟩ := run_bind_ok hrest
  have hfinal : finalMachine ((update (.link id prototype)).run answers m) = m₂ := congrArg finalMachine hlink
  have hresult : ((Update.link id prototype).apply m.toState).1 = linked := by
    cases hlink
    rfl
  have hcloses : m.closesCircle id prototype = !linked := by
    rw [← hresult, Update.apply, State.changeObject_eq]
    cases m.closesCircle id prototype <;> rfl
  cases linked with
  | false =>
    obtain ⟨_, _, _, hthrow⟩ := run_bind_ok hlast
    cases hthrow
  | true =>
    cases hlast
    refine ⟨hcloses, ?_⟩
    have hlinked : (m'.objectAt id).prototype =
        (((Update.link id prototype).apply m.toState).2.objectAt id).prototype := by
      rw [← hfinal]
      rfl
    rw [hlinked, Update.apply, State.objectAt_changeObject hid, hcloses]
    rfl

namespace HostCall

/-- **Links of objects.** In all that happens during host calls,

* the link of an object that is there changes only by the change that `Object.setPrototypeOf` makes;
* where that succeeds, it has found no circle, and the object has the link that was asked for;
* if there is no circle at the start, there is none at any event and none at the end, as long as the search for a circle
  reaches the end of the chain whenever a link is changed;
* on a chain that ends within the bound of the search, `inheritsFrom` finds an object exactly if it is on the chain. -/
theorem prototypes_linked {calls : List HostCall} {m : Machine} (hm : m.WellFormed) (hcalls : AllPresent calls m) :
    (∀ event ∈ logAll calls m, ∀ id : ObjectId, id.index < event.machine.heap.size → ¬ event.Links id →
      (event.after.objectAt id).prototype = (event.machine.objectAt id).prototype) ∧
    (∀ (answers : Answers) (t t' : Machine) (id : ObjectId) (prototype : Option ObjectId), id.index < t.heap.size →
      (Eval.setPrototype id prototype).run answers t = .ok () t' →
        t.closesCircle id prototype = false ∧ (t'.objectAt id).prototype = prototype) ∧
    (m.Acyclic → (∀ event ∈ logAll calls m, event.linksShort = true) →
      (∀ event ∈ logAll calls m, event.machine.Acyclic) ∧ (performAll calls m).Acyclic) ∧
    ∀ (s : State) (id p : ObjectId), s.endsWithin State.chainLimit (s.objectAt id).prototype = true →
      (s.inheritsFrom id p = true ↔ s.Inherits id p) := by
  have hallowed := allowed_logAll hm hcalls
  refine ⟨fun event he id hid hlinks => ?_, fun answers t t' id prototype hid hrun => ?_, fun hacyclic hshort => ?_,
    fun s id p hends => State.inheritsFrom_iff hends⟩
  · obtain ⟨e, -, hallowed⟩ := hallowed event he
    exact Event.prototype_after hallowed hid hlinks
  · exact Eval.prototype_setPrototype hid hrun
  · have hleads := leads_logAll calls m
    have hwell := (wellFormed_logAll hm hcalls).1
    have hend := hleads.invariant (I := State.Acyclic) (fun hsame hs => ?_) (fun event he hs => ?_) hacyclic
    · exact ⟨hend.2, hend.1⟩
    · have hlinks : State.SameLinks _ _ := fun id => congrArg Object.prototype (hsame.objectAt id)
      exact hlinks.acyclic hs
    · obtain ⟨e, hopen, hallowed⟩ := hallowed event he
      exact Event.acyclic_after hallowed hopen (hwell event he).linked (hshort event he) hs

/-- A machine with the function `setPrototypeOf` and two objects without prototypes. -/
def linkMachine : Machine :=
  { heap := Array.replicate 23 {} ++ #[{ callable := some (.builtin (.object .setPrototypeOf)) }, {}, {}]
    bindings := ⟨22⟩ }

theorem linkMachine_wellFormed : linkMachine.WellFormed := by
  refine State.wellFormed_of_empty rfl rfl (fun i => Nat.lt_of_lt_of_le i.index_lt (by decide)) (by decide +kernel)
    (by decide +kernel) fun o ho c hc => ?_
  simp only [linkMachine, Array.mem_append, List.mem_toArray, List.mem_cons, List.not_mem_nil, or_false] at ho
  rcases ho with ho | rfl | rfl | rfl
  · obtain rfl := Array.eq_of_mem_replicate ho
    cases hc
  · cases hc
    trivial
  · cases hc
  · cases hc

/-- The two objects are linked, and then the other way round, which would close a circle. -/
def linkCalls : List HostCall :=
  [.call (.object ⟨23⟩) .undefined #[.object ⟨24⟩, .object ⟨25⟩],
    .call (.object ⟨23⟩) .undefined #[.object ⟨25⟩, .object ⟨24⟩]]

theorem linkCalls_present : AllPresent linkCalls linkMachine := by
  refine ⟨⟨trivial, State.present_of_empty rfl (by decide)⟩, ⟨trivial, State.present_of_empty ?_ ?_⟩, trivial⟩
  · exact Array.eq_empty_of_size_eq_zero (by decide +kernel)
  · decide +kernel

theorem linkMachine_acyclic : linkMachine.Acyclic := by
  have hnone (id : ObjectId) : (linkMachine.objectAt id).prototype = none := by
    rcases Nat.lt_or_ge id.index linkMachine.heap.size with hlt | hge
    · have hall : ∀ o ∈ linkMachine.heap, o.prototype.isNone = true := by decide +kernel
      exact Option.isNone_iff_eq_none.mp (hall _ (State.mem_objectAt hlt))
    · rw [State.objectAt_of_size_le hge]
      rfl
  intro id hinherits
  cases hinherits with
  | link h => cases (hnone id).symm.trans h
  | step h _ => cases (hnone id).symm.trans h

/-- There is no circle at any moment, although the second call asks for one. -/
theorem prototypes_linked_pair : linkMachine.Acyclic ∧
    (∀ event ∈ logAll linkCalls linkMachine, event.linksShort = true) ∧
      ∀ event ∈ logAll linkCalls linkMachine, event.machine.Acyclic := by
  have hshort : ∀ event ∈ logAll linkCalls linkMachine, event.linksShort = true := by
    have hall : (logAll linkCalls linkMachine).all Event.linksShort = true := by decide +kernel
    exact List.all_eq_true.mp hall
  exact ⟨linkMachine_acyclic, hshort,
    ((prototypes_linked linkMachine_wellFormed linkCalls_present).2.2.1 linkMachine_acyclic hshort).1⟩

end HostCall

end GuestScript
