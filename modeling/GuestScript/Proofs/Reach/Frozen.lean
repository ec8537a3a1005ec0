import GuestScript.Proofs.Count
import GuestScript.Proofs.Object.Closed
import GuestScript.Proofs.Reach.WellFormed

/-!
# Closed and frozen objects during runs

A script closes an object with `Object.preventExtensions`, and freezes it with `Object.freeze`. Every event of a run
either leaves such an object alone, or asks it, or is one that the object cannot refuse (`Event.takes`):

* Code *sets an object up* without asking (`Event.SetsUp`). So do the initializers of the built-in classes when `super`
  hands them an object that was there before, and so do declarations in a scope that is made of an object.
* A change of an array's elements in place, or of its length, does not ask whether the array is closed
  (`Event.Resizes`).
* A method of a date that was made a string meanwhile takes the text from it (`Event.Retimes`).

Apart from these, an object that is closed gets no new key (`HostCall.closed_stays`), and one that is frozen shows the
same keys and properties for ever (`HostCall.frozen_stays`).
-/

namespace GuestScript

/-! ## 1. Changes that are not asked for -/

namespace Event

/-- Whether an event puts something into an object without asking it. -/
def SetsUp (id : ObjectId) : Event → Prop
  | .start (.update (.object id' f)) _ => id' = id ∧ ∃ g, Object.SetUp g ∧ ∀ o, (f o).1 = g o
  | .start (.update (.names scope _)) m => (m.scopeAt scope).data = id
  | _ => False

/-- Whether an event changes the elements of an object in place, or its length. -/
def Resizes (id : ObjectId) : Event → Prop
  | .start (.update (.object id' f)) _ => id' = id ∧ Object.Resizes f
  | _ => False

/-- Whether an event changes the time of an object. -/
def Retimes (id : ObjectId) : Event → Prop
  | .start (.update (.object id' f)) _ => id' = id ∧ Object.Retimes f
  | _ => False

variable {e : Embedding} {event : Event} {id : ObjectId}

/-- **What an event makes of a closed object**, unless it sets the object up. -/
theorem takes (h : event.Allowed e) (hid : id.index < event.machine.heap.size) (hsets : ¬ event.SetsUp id)
    (hclosed : (event.machine.objectAt id).extensible = false) :
    (event.machine.objectAt id).Takes (event.Resizes id) (event.Retimes id) (event.after.objectAt id) := by
  rcases changes h hid with heq | ⟨prototype, heq⟩ | ⟨α, f, m, rfl, hw, heq⟩ | ⟨scope, f, m, rfl, -, hdata, -⟩
  · rw [heq]
    exact .same
  · rw [heq]
    exact .relinked prototype
  · rw [heq]
    cases hw with
    | asked hf => exact hf.takes hclosed (⟨rfl, ·⟩) (⟨rfl, ·⟩)
    | setUp hg hf => exact absurd ⟨rfl, _, hg, hf⟩ hsets
  · exact absurd hdata hsets

end Event

/-! ## 2. Along a log -/

section

variable {e : Embedding} {l : Log} {s s' : State} {id : ObjectId}

/-- An object that is closed has a place on the heap. -/
theorem State.index_lt_of_closed (h : (s.objectAt id).extensible = false) : id.index < s.heap.size := by
  by_contra hge
  rw [objectAt_of_size_le (Nat.le_of_not_lt hge)] at h
  cases h

namespace Log.Leads

/-- A closed object stays closed and gets no new key, as long as nothing sets it up or gives it more elements. -/
theorem hasOwn (h : Log.Leads s l s') (hclosed : (s.objectAt id).extensible = false)
    (hallowed : ∀ event ∈ l, ∃ e, event.Allowed e) (hsets : ∀ event ∈ l, ¬ event.SetsUp id)
    (hresizes : ∀ event ∈ l, event.Resizes id →
      (event.after.objectAt id).elementCount ≤ (event.machine.objectAt id).elementCount) :
    (s'.objectAt id).extensible = false ∧
      ∀ key, (s'.objectAt id).hasOwn key = true → (s.objectAt id).hasOwn key = true := by
  refine (h.invariant (I := fun t => (t.objectAt id).extensible = false ∧
    ∀ key, (t.objectAt id).hasOwn key = true → (s.objectAt id).hasOwn key = true) ?_ ?_ ⟨hclosed, fun _ hkey => hkey⟩).1
  · intro t t' hsame ht
    rwa [hsame.objectAt]
  · rintro event he ⟨hclosed, hkeys⟩
    obtain ⟨e, hallowed⟩ := hallowed event he
    have htakes := Event.takes hallowed (State.index_lt_of_closed hclosed) (hsets event he) hclosed
    have hcount : (event.after.objectAt id).elementCount ≤ (event.machine.objectAt id).elementCount := by
      by_contra hmore
      exact hmore (hresizes event he (htakes.resizes_of_lt (Nat.lt_of_not_le hmore)))
    exact ⟨htakes.extensible hclosed, fun key hkey => hkeys key (htakes.hasOwn hcount hkey)⟩

/-- A frozen object shows the same, as long as nothing sets it up or takes the text from it. -/
theorem shows (h : Log.Leads s l s') (hrigid : (s.objectAt id).Rigid) (hallowed : ∀ event ∈ l, ∃ e, event.Allowed e)
    (hsets : ∀ event ∈ l, ¬ event.SetsUp id)
    (hretimes : ∀ event ∈ l, event.Retimes id → (event.machine.objectAt id).text? = none) :
    (s.objectAt id).Shows (s'.objectAt id) := by
  refine (h.invariant (I := fun t => (t.objectAt id).Rigid ∧ (s.objectAt id).Shows (t.objectAt id)) ?_ ?_
    ⟨hrigid, hrigid.shows_self⟩).1.2
  · intro t t' hsame ht
    rwa [hsame.objectAt]
  · rintro event he ⟨hrigid, hshows⟩
    obtain ⟨e, hallowed⟩ := hallowed event he
    have htakes := Event.takes hallowed (State.index_lt_of_closed hrigid.closed) (hsets event he) hrigid.closed
    have hafter := hrigid.shows htakes (htakes.text?_eq (hretimes event he))
    exact ⟨hrigid.of_shows hafter (htakes.extensible hrigid.closed), hshows.trans hafter⟩

end Log.Leads

end

/-! ## 3. Closing and freezing -/

namespace Eval

variable {answers : Answers} {m m' : Machine} {id : ObjectId} {receiver v : Value}

/-- An object passes the check for protection, or the run ends there. -/
theorem machine_checkMutable (h : (checkMutable id).run answers m = .ok () m') : m' = m := by
  obtain ⟨label, m₁, hlabel, h⟩ := run_bind_ok h
  cases hlabel
  dsimp only at h
  cases hname : m.realm.label? id with
  | some name =>
    rw [hname] at h
    obtain ⟨p, m₂, -, h⟩ := run_bind_ok h
    unfold raise at h
    split at h
    · cases h
    · obtain ⟨_, _, _, h⟩ := run_bind_ok h
      cases h
  | none =>
    rw [hname] at h
    cases h
    rfl

/-- An object that is not protected is changed as it is asked for. -/
theorem objectAt_changed {f : Object → Object} (hid : id.index < m.heap.size)
    (h : (do checkMutable id; modifyObject id f; pure (.object id) : Eval Value).run answers m = .ok v m') :
    m'.objectAt id = f (m.objectAt id) := by
  obtain ⟨_, m₁, hmutable, hrest⟩ := run_bind_ok h
  rw [machine_checkMutable hmutable] at hrest
  obtain ⟨_, m₂, hmodify, hlast⟩ := run_bind_ok hrest
  cases hlast
  have hfinal : finalMachine ((modifyObject id f).run answers m) = m' := congrArg finalMachine hmodify
  rw [← hfinal]
  exact State.objectAt_changeObject hid fun o => (f o, ())

theorem objectAt_freeze (hid : id.index < m.heap.size)
    (h : (ObjectMethod.freeze.run receiver #[.object id]).run answers m = .ok v m') :
    m'.objectAt id = (m.objectAt id).freeze :=
  objectAt_changed hid h

theorem objectAt_preventExtensions (hid : id.index < m.heap.size)
    (h : (ObjectMethod.preventExtensions.run receiver #[.object id]).run answers m = .ok v m') :
    m'.objectAt id = { m.objectAt id with extensible := false } :=
  objectAt_changed hid h

end Eval

/-! ## 4. Host calls -/

namespace HostCall

/-- Every event of host calls can be told along some embedding of what is there. -/
theorem allowed_logAll {calls : List HostCall} {m : Machine} (hm : m.WellFormed) (hcalls : AllPresent calls m) :
    ∀ event ∈ logAll calls m,
      ∃ e : Embedding, (∀ id, e.Open id → id.index < event.machine.heap.size) ∧ event.Allowed e := by
  induction calls generalizing m with
  | nil => exact fun _ he => (List.not_mem_nil he).elim
  | cons c rest ih =>
    intro event he
    rcases List.mem_append.mp he with he | he
    · obtain ⟨l, hleads, hkept⟩ := kept_log hm hcalls.1 he
      exact ⟨hleads.upTo hm, fun id hid => hid.1, hkept.allowed⟩
    · exact ih (wellFormed_log hm hcalls.1).2 hcalls.2 event he

/-- The part of a log from one event up to another one. -/
theorem leads_between {calls : List HostCall} {m : Machine} (hm : m.WellFormed) (hcalls : AllPresent calls m)
    {before between after : Log} {first last : Event}
    (hlog : logAll calls m = before ++ first :: (between ++ last :: after)) :
    Log.Leads first.machine.toState (first :: between) last.machine.toState ∧
      ∀ event ∈ first :: between, ∃ e, event.Allowed e := by
  have hleads := leads_logAll calls m
  have hallowed : ∀ event ∈ logAll calls m, ∃ e, event.Allowed e := fun event he =>
    (allowed_logAll hm hcalls event he).imp fun _ h => h.2
  have hparts : logAll calls m = before ++ ((first :: between) ++ (last :: after)) := hlog
  rw [hparts] at hleads hallowed
  obtain ⟨s, -, hrest⟩ := hleads.split
  obtain ⟨t, hbetween, hlast⟩ := hrest.split
  exact ⟨(hbetween.congr hbetween.1.symm).last hlast.1,
    fun event he => hallowed event (List.mem_append_right _ (List.mem_append_left _ he))⟩

/-- **A closed object gets no new key.** `Object.preventExtensions` and `Object.freeze` close an object. Let an object be
closed at some event of host calls. At every later event it still is, and each of its own keys was an own one before,
unless code has set it up without asking, or a change of the elements in place or of the length has given it more
elements. -/
theorem closed_stays (id : ObjectId) :
    (∀ (method : ObjectMethod) (receiver : Value) (answers : Answers) (m m' : Machine) (v : Value),
      method = .preventExtensions ∨ method = .freeze → id.index < m.heap.size →
        (method.run receiver #[.object id]).run answers m = .ok v m' → (m'.objectAt id).extensible = false) ∧
    ∀ (calls : List HostCall) (m : Machine), m.WellFormed → AllPresent calls m →
      ∀ (before between after : Log) (first last : Event),
        logAll calls m = before ++ first :: (between ++ last :: after) →
          (first.machine.objectAt id).extensible = false →
          (∀ event ∈ first :: between, ¬ event.SetsUp id ∧
            (event.Resizes id →
              (event.after.objectAt id).elementCount ≤ (event.machine.objectAt id).elementCount)) →
            (last.machine.objectAt id).extensible = false ∧
              ∀ key, (last.machine.objectAt id).hasOwn key = true → (first.machine.objectAt id).hasOwn key = true := by
  refine ⟨fun method receiver answers m m' v hmethod hid hrun => ?_, ?_⟩
  · rcases hmethod with rfl | rfl
    · rw [Eval.objectAt_preventExtensions hid hrun]
    · rw [Eval.objectAt_freeze hid hrun]
      rfl
  · intro calls m hm hcalls before between after first last hlog hclosed hbetween
    obtain ⟨hleads, hallowed⟩ := leads_between hm hcalls hlog
    exact hleads.hasOwn hclosed hallowed (fun event he => (hbetween event he).1) fun event he => (hbetween event he).2

/-- A machine with empty objects in the place of the intrinsic ones, one for bindings, the function `push`, and a frozen
array of one element. -/
def lockedMachine : Machine :=
  { heap := Array.replicate 23 {} ++ #[Eval.functionObject (.builtin (.array .push)),
      { sort := .array, elements := some #[.null], extensible := false, frozen := true }]
    bindings := ⟨22⟩ }

theorem lockedMachine_wellFormed : lockedMachine.WellFormed := by
  refine State.wellFormed_of_empty rfl rfl (fun i => Nat.lt_of_lt_of_le i.index_lt (by decide)) (by decide +kernel)
    (by decide +kernel) fun o ho c hc => ?_
  simp only [lockedMachine, Array.mem_append, List.mem_toArray, List.mem_cons, List.not_mem_nil, or_false] at ho
  rcases ho with ho | rfl | rfl
  · obtain rfl := Array.eq_of_mem_replicate ho
    cases hc
  · cases hc
    trivial
  · cases hc

/-- A call that wants to put a value into the frozen array. -/
def lockedCalls : List HostCall :=
  [.call (.object ⟨23⟩) (.object ⟨24⟩) #[.null]]

/-- Whether an event does nothing to an object. -/
def leavesObject (id : ObjectId) : Event → Bool
  | .start (.update (.object id' _)) _ => id' != id
  | .start (.update (.names _ _)) _ => false
  | _ => true

theorem leavesObject_spec {id : ObjectId} {event : Event} (h : leavesObject id event = true) :
    ¬ event.SetsUp id ∧ ¬ event.Resizes id ∧ ¬ event.Retimes id := by
  cases event with
  | finish x r => exact ⟨not_false, not_false, not_false⟩
  | start x m =>
    cases x with
    | update u =>
      cases u with
      | object id' f =>
        have hne : id' ≠ id := bne_iff_ne.mp h
        exact ⟨fun hsets => hne hsets.1, fun hresizes => hne hresizes.1, fun hretimes => hne hretimes.1⟩
      | names scope f => cases h
      | _ => exact ⟨not_false, not_false, not_false⟩
    | _ => exact ⟨not_false, not_false, not_false⟩

/-- The call does nothing to the array, from its first event to its last. -/
theorem logAll_lockedCalls : ∃ first between last,
    logAll lockedCalls lockedMachine = [] ++ first :: (between ++ last :: []) ∧
      first.machine.objectAt ⟨24⟩ = lockedMachine.objectAt ⟨24⟩ ∧
      ∀ event ∈ first :: between, leavesObject ⟨24⟩ event = true := by
  have hcheck : (2 ≤ (logAll lockedCalls lockedMachine).length ∧
      (logAll lockedCalls lockedMachine).all (leavesObject ⟨24⟩) = true) := by decide +kernel
  have hleads := leads_logAll lockedCalls lockedMachine
  generalize logAll lockedCalls lockedMachine = log at hcheck hleads
  obtain ⟨hlength, hleaves⟩ := hcheck
  obtain ⟨first, rest, rfl⟩ := List.exists_cons_of_length_pos (Nat.lt_of_lt_of_le Nat.two_pos hlength)
  have hrest : rest ≠ [] := List.ne_nil_of_length_pos (Nat.le_of_succ_le_succ hlength)
  refine ⟨first, rest.dropLast, rest.getLast hrest, ?_, hleads.1.objectAt _, fun event he => ?_⟩
  · rw [List.nil_append, List.dropLast_append_getLast]
  · refine List.all_eq_true.mp hleaves event ?_
    exact (List.mem_cons.mp he).elim (fun h => h ▸ List.mem_cons_self) fun h =>
      List.mem_cons_of_mem _ (List.mem_of_mem_dropLast h)

theorem lockedCalls_present : AllPresent lockedCalls lockedMachine :=
  ⟨⟨trivial, State.present_of_empty rfl (by decide)⟩, trivial⟩

/-- The array has no new key at the end of the call. -/
theorem closed_stays_locked : ∃ first between last,
    logAll lockedCalls lockedMachine = [] ++ first :: (between ++ last :: []) ∧
      (first.machine.objectAt ⟨24⟩).extensible = false ∧
      ∀ key, (last.machine.objectAt ⟨24⟩).hasOwn key = true → (first.machine.objectAt ⟨24⟩).hasOwn key = true := by
  obtain ⟨first, between, last, hlog, hfirst, hleaves⟩ := logAll_lockedCalls
  have hclosed : (first.machine.objectAt ⟨24⟩).extensible = false := by
    rw [hfirst]
    rfl
  refine ⟨first, between, last, hlog, hclosed, ((closed_stays ⟨24⟩).2 lockedCalls lockedMachine
    lockedMachine_wellFormed lockedCalls_present [] between [] first last hlog hclosed fun event he => ?_).2⟩
  obtain ⟨hsets, hresizes, -⟩ := leavesObject_spec (hleaves event he)
  exact ⟨hsets, fun h => absurd h hresizes⟩

/-- **What is frozen stays as it is.** `Object.freeze` makes an object rigid. Let an object be rigid at some event of host
calls. At every later event it has the same own keys in the same order, and each own property is the same, unless
code has set it up without asking, or has set the time of a wrapped string. -/
theorem frozen_stays (id : ObjectId) :
    (∀ (receiver : Value) (answers : Answers) (m m' : Machine) (v : Value), id.index < m.heap.size →
      (ObjectMethod.freeze.run receiver #[.object id]).run answers m = .ok v m' → (m'.objectAt id).Rigid) ∧
    ∀ (calls : List HostCall) (m : Machine), m.WellFormed → AllPresent calls m →
      ∀ (before between after : Log) (first last : Event),
        logAll calls m = before ++ first :: (between ++ last :: after) →
          (first.machine.objectAt id).Rigid →
          (∀ event ∈ first :: between, ¬ event.SetsUp id ∧
            (event.Retimes id → (event.machine.objectAt id).text? = none)) →
            Object.SameKeys (first.machine.objectAt id).ownKeys (last.machine.objectAt id).ownKeys ∧
              ∀ key, Option.Rel Property.Same ((first.machine.objectAt id).own? key)
                ((last.machine.objectAt id).own? key) := by
  refine ⟨fun receiver answers m m' v hid hrun => ?_, ?_⟩
  · rw [Eval.objectAt_freeze hid hrun]
    exact Object.rigid_freeze _
  · intro calls m hm hcalls before between after first last hlog hrigid hbetween
    obtain ⟨hleads, hallowed⟩ := leads_between hm hcalls hlog
    have hshows := hleads.shows hrigid hallowed (fun event he => (hbetween event he).1) fun event he =>
      (hbetween event he).2
    exact ⟨Object.Rigid.ownKeys hshows, hrigid.own? hshows⟩

/-- The array shows the same at the end of the call. -/
theorem frozen_stays_locked : ∃ first between last,
    logAll lockedCalls lockedMachine = [] ++ first :: (between ++ last :: []) ∧
      (first.machine.objectAt ⟨24⟩).Rigid ∧
      Object.SameKeys (first.machine.objectAt ⟨24⟩).ownKeys (last.machine.objectAt ⟨24⟩).ownKeys := by
  obtain ⟨first, between, last, hlog, hfirst, hleaves⟩ := logAll_lockedCalls
  have hrigid : (first.machine.objectAt ⟨24⟩).Rigid := by
    rw [hfirst]
    exact ⟨rfl, rfl, fun _ he => (List.not_mem_nil he).elim⟩
  refine ⟨first, between, last, hlog, hrigid, ((frozen_stays ⟨24⟩).2 lockedCalls lockedMachine
    lockedMachine_wellFormed lockedCalls_present [] between [] first last hlog hrigid fun event he => ?_).1⟩
  obtain ⟨hsets, -, hretimes⟩ := leavesObject_spec (hleaves event he)
  exact ⟨hsets, fun h => absurd h hretimes⟩

end HostCall

end GuestScript
