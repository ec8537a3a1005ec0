import GuestScript.Proofs.Collection
import GuestScript.Proofs.Object.Elements
import GuestScript.Proofs.Reach.Frozen

/-!
# What a walk over a collection visits

`forEach` walks over a collection by place while its callback may change the collection. A place is visited exactly if
there is an entry in it when the walk comes by (`Collection.Walks`, `CollectionMethod.forEach_visits`): an entry that was
taken out before its turn is passed over, and one that was added behind is met later on.

Places are given away once as long as nothing clears the collection or makes it one anew: a gap stays a gap, an entry
keeps its key, and what is added goes behind all other places (`Collection.Continues`). So each entry has one turn, and
the walk does not end before it has visited all entries that are left. To clear a collection gives its places away
again. What is added after that may come into a place that the walk has passed, and then it is not visited.
-/

namespace GuestScript

namespace Collection

variable {o o' o'' : Object}

/-! ## 1. Places that go on -/

/-- The entry in a place of an object. -/
def entryAt? (o : Object) (place : Nat) : Option (Value × Value) :=
  (walkedSlots o)[place]?.join

/-- Whether the places of one object are those of another one later on: what is in a place has been in it with the same
key, unless the place is new. -/
structure Continues (o o' : Object) : Prop where
  size_le : (walkedSlots o).size ≤ (walkedSlots o').size
  kept : ∀ {place : Nat} {entry : Value × Value}, place < (walkedSlots o).size → entryAt? o' place = some entry →
    ∃ old, entryAt? o place = some old ∧ old.1.identity = entry.1.identity

theorem Continues.refl (o : Object) : Continues o o :=
  ⟨Nat.le_refl _, fun _ h => ⟨_, h, rfl⟩⟩

theorem Continues.trans (h : Continues o o') (h' : Continues o' o'') : Continues o o'' where
  size_le := h.size_le.trans h'.size_le
  kept hplace hentry := by
    obtain ⟨between, hbetween, hsame'⟩ := h'.kept (hplace.trans_le h.size_le) hentry
    obtain ⟨old, hold, hsame⟩ := h.kept hplace hbetween
    exact ⟨old, hold, hsame.trans hsame'⟩

theorem lt_size_of_entryAt? {place : Nat} {entry : Value × Value} (h : entryAt? o place = some entry) :
    place < (walkedSlots o).size := by
  by_contra hge
  rw [entryAt?, Array.getElem?_eq_none (Nat.le_of_not_lt hge)] at h
  cases h

/-- Whether an object has entries of one sort: it is not both keyed and a set. -/
def IsPlain (o : Object) : Prop :=
  o.mapEntries = none ∨ o.setEntries = none

theorem walkedSlots_of_isPlain (h : IsPlain o) : walkedSlots o = slots o := by
  unfold walkedSlots
  split
  · rcases h with h | h <;> simp_all
  · rfl

/-- What becomes of the places of entries when single entries are changed. -/
theorem Edited.places {α : Type} {key : α → Value} {before after : Array (Option α)} (h : Edited key before after) :
    before.size ≤ after.size ∧ ∀ {i : Nat} {b : α}, i < before.size → after[i]?.join = some b →
      ∃ a, before[i]?.join = some a ∧ (key a).identity = (key b).identity := by
  cases h with
  | kept => exact ⟨Nat.le_refl _, fun _ hb => ⟨_, hb, rfl⟩⟩
  | @replaced i a b ha hsame =>
    refine ⟨by simp, fun {j c} hj hc => ?_⟩
    rw [Array.getElem?_setIfInBounds] at hc
    split at hc
    · subst_vars
      rw [if_pos hj] at hc
      cases hc
      exact ⟨a, by rw [ha]; rfl, (Value.sameValueZero_iff _ _).mp hsame⟩
    · exact ⟨c, hc, rfl⟩
  | deleted i =>
    refine ⟨by simp, fun {j c} hj hc => ?_⟩
    rw [Array.getElem?_setIfInBounds] at hc
    split at hc
    · subst_vars
      rw [if_pos hj] at hc
      cases hc
    · exact ⟨c, hc, rfl⟩
  | added a =>
    refine ⟨by simp, fun {j c} hj hc => ⟨c, ?_, rfl⟩⟩
    rwa [Array.getElem?_push, if_neg (Nat.ne_of_lt hj)] at hc

theorem getElem?_memberSlots (members : Array (Option Value)) (i : Nat) :
    (memberSlots members)[i]?.join = members[i]?.join.map fun v => (v, v) := by
  rw [memberSlots, Array.getElem?_map]
  rcases members[i]? with _ | _ | v <;> rfl

/-- What becomes of the entries of an object when single entries are changed. -/
structure EditedSlots (o o' : Object) : Prop where
  entries : Option.Rel (Edited Prod.fst) o.mapEntries o'.mapEntries
  members : Option.Rel (Edited id) o.setEntries o'.setEntries

theorem EditedSlots.isPlain (h : EditedSlots o o') (ho : IsPlain o) : IsPlain o' := by
  obtain ⟨hentries, hmembers⟩ := h
  rcases ho with hnone | hnone
  · rw [hnone] at hentries
    cases hentries' : o'.mapEntries with
    | none => exact .inl hentries'
    | some es => rw [hentries'] at hentries; cases hentries
  · rw [hnone] at hmembers
    cases hmembers' : o'.setEntries with
    | none => exact .inr hmembers'
    | some ms => rw [hmembers'] at hmembers; cases hmembers

/-- A change of single entries leaves all places where they are. -/
theorem EditedSlots.continues (h : EditedSlots o o') (ho : IsPlain o) : Continues o o' := by
  have hbefore : walkedSlots o = slots o := walkedSlots_of_isPlain ho
  have hafter : walkedSlots o' = slots o' := walkedSlots_of_isPlain (h.isPlain ho)
  have hentries := h.entries
  have hmembers := h.members
  rw [slots] at hbefore hafter
  generalize o.mapEntries = entries at hentries hbefore
  generalize o'.mapEntries = entries' at hentries hafter
  generalize o.setEntries = members at hmembers hbefore
  generalize o'.setEntries = members' at hmembers hafter
  cases hentries with
  | some hedited =>
    dsimp only at hbefore hafter
    refine ⟨?_, fun {place entry} hplace hentry => ?_⟩
    · rw [hbefore, hafter]
      exact hedited.places.1
    · rw [entryAt?, hafter] at hentry
      rw [hbefore] at hplace
      rw [entryAt?, hbefore]
      exact hedited.places.2 hplace hentry
  | none =>
    cases hmembers with
    | some hedited =>
      dsimp only at hbefore hafter
      refine ⟨?_, fun {place entry} hplace hentry => ?_⟩
      · rw [hbefore, hafter, memberSlots, memberSlots, Array.size_map, Array.size_map]
        exact hedited.places.1
      · rw [entryAt?, hafter, getElem?_memberSlots] at hentry
        rw [hbefore, memberSlots, Array.size_map] at hplace
        obtain ⟨v, hv, rfl⟩ := Option.map_eq_some_iff.mp hentry
        obtain ⟨old, hold, hsame⟩ := hedited.places.2 hplace hv
        exact ⟨(old, old), by rw [entryAt?, hbefore, getElem?_memberSlots, hold]; rfl, hsame⟩
    | none =>
      dsimp only at hbefore hafter
      refine ⟨by rw [hbefore, hafter], fun {place entry} hplace _ => ?_⟩
      rw [hbefore] at hplace
      exact absurd hplace (Nat.not_lt_zero _)

end Collection

/-! ## 2. Changes of places -/

namespace Object

open Collection

theorem editedSlots_of_eq {o o' : Object} (hentries : o'.mapEntries = o.mapEntries)
    (hmembers : o'.setEntries = o.setEntries) : EditedSlots o o' :=
  ⟨hentries ▸ Edited.rel_refl _ _, hmembers ▸ Edited.rel_refl _ _⟩

theorem editedSlots_of_rest {o o' : Object}
    (h : ∃ properties elements, o' = { o with properties := properties, elements := elements }) : EditedSlots o o' := by
  obtain ⟨properties, elements, rfl⟩ := h
  exact editedSlots_of_eq rfl rfl

/-- A change that asks takes all entries out, or it changes single entries at most. -/
theorem Asked.slots {α : Type} {f : Object → Object × α} (hf : Asked f) :
    (∀ o, (f o).1 = Collection.clear o) ∨ ∀ o, EditedSlots o (f o).1 := by
  cases hf with
  | clear => exact .inl fun _ => rfl
  | define key d => exact .inr fun o => editedSlots_of_rest (o.define_rest key d)
  | delete key => exact .inr fun o => editedSlots_of_rest (o.delete_rest key)
  | elements f => exact .inr fun o => editedSlots_of_rest (o.changeElements_rest f)
  | entries hf => exact .inr fun o => ⟨(hf o).entries, (hf o).members⟩
  | freeze | close | time => exact .inr fun o => editedSlots_of_eq rfl rfl

end Object

namespace Event

/-- Whether an event takes all entries out of an object. -/
def Clears (id : ObjectId) : Event → Prop
  | .start (.update (.object id' f)) _ => id' = id ∧ ∀ o, (f o).1 = Collection.clear o
  | _ => False

/-- **What an event makes of the entries of an object**: it changes single ones at most, unless it clears the object or
sets it up. -/
theorem editedSlots {e : Embedding} {event : Event} {id : ObjectId} (h : event.Allowed e)
    (hid : id.index < event.machine.heap.size) (hsets : ¬ event.SetsUp id) (hclears : ¬ event.Clears id) :
    Collection.EditedSlots (event.machine.objectAt id) (event.after.objectAt id) := by
  rcases changes h hid with heq | ⟨prototype, heq⟩ | ⟨α, f, m, rfl, hw, heq⟩ | ⟨scope, f, m, rfl, -, hdata, -⟩
  · rw [heq]
    exact Object.editedSlots_of_eq rfl rfl
  · rw [heq]
    exact Object.editedSlots_of_eq rfl rfl
  · rw [heq]
    cases hw with
    | asked hf =>
      rcases hf.slots with hclear | hedited
      · exact absurd ⟨rfl, hclear⟩ hclears
      · exact hedited _
    | setUp hg hf => exact absurd ⟨rfl, _, hg, hf⟩ hsets
  · exact absurd hdata hsets

end Event

namespace Eval

open Collection

/-- **The places of an object go on during a run** whose deeds neither clear the object nor set it up. -/
theorem Does.continues {n : Nat} {α : Type} {x : Eval α} {m : Machine} {r : EStateM.Result Stop Machine α} {d : Log}
    {id : ObjectId} (h : x.Does n m r d) (hid : id.index < m.heap.size) (hplain : IsPlain (m.objectAt id))
    (hallowed : ∀ event ∈ d, ∃ e, event.Allowed e) (hkeeps : ∀ event ∈ d, ¬ event.SetsUp id ∧ ¬ event.Clears id) :
    id.index < (finalMachine r).heap.size ∧ IsPlain ((finalMachine r).objectAt id) ∧
      Continues (m.objectAt id) ((finalMachine r).objectAt id) := by
  refine h.invariant (I := fun t => id.index < t.heap.size ∧ IsPlain (t.objectAt id) ∧
    Continues (m.objectAt id) (t.objectAt id)) ?_ ?_ ⟨hid, hplain, .refl _⟩
  · rintro t t' hsame ⟨hid, hrest⟩
    rw [hsame.objectAt, hsame.heap]
    exact ⟨hid, hrest⟩
  · rintro event he ⟨hid, hplain, hcontinues⟩
    obtain ⟨e, hallowed⟩ := hallowed event he
    have hedited := Event.editedSlots hallowed hid (hkeeps event he).1 (hkeeps event he).2
    exact ⟨hid.trans_le event.size_le_after, hedited.isPlain hplain, hcontinues.trans (hedited.continues hplain)⟩

end Eval

namespace Collection

/-! ## 3. Walks -/

/-- The visit of an entry: its place, the machines before and after the call for it, and what was done. -/
structure Visit where
  place : Nat
  entry : Value × Value
  start : Machine
  finish : Machine
  deeds : Log

/-- The visits of a walk from a place on, with a call for each of them: the first place from there on that has an entry
is visited, and the walk goes on behind it, on the machine that the call leaves behind. -/
inductive Walks (n : Nat) (f receiver : Value) (id : ObjectId) : Nat → Machine → List Visit → Machine → Prop where
  /-- There is no entry left. -/
  | ends {place : Nat} {m : Machine} (hgaps : ∀ later, place ≤ later → entryAt? (m.objectAt id) later = none) :
      Walks n f receiver id place m [] m
  | visits {place next : Nat} {entry : Value × Value} {m m₁ m' : Machine} {d : Log} {v : Value} {visits : List Visit}
      (hplace : place ≤ next) (hgaps : ∀ p, place ≤ p → p < next → entryAt? (m.objectAt id) p = none)
      (hentry : entryAt? (m.objectAt id) next = some entry)
      (hcall : (Eval.callback f receiver #[entry.2, entry.1, .object id]).Does n m (.ok v m₁) d)
      (rest : Walks n f receiver id (next + 1) m₁ visits m') :
      Walks n f receiver id place m (⟨next, entry, m, m₁, d⟩ :: visits) m'

/-- The machine at the turn of a place: when a walk comes to it or goes past it, or at the end of the walk. -/
def atTurn (visits : List Visit) (place : Nat) (last : Machine) : Machine :=
  ((visits.find? fun visit => place ≤ visit.place).map Visit.start).getD last

/-- The machines at the visits of a walk, and at its end. -/
def moments (visits : List Visit) (last : Machine) : List Machine :=
  visits.map Visit.start ++ [last]

section

variable {n : Nat} {f receiver : Value} {id : ObjectId} {place : Nat} {m m' : Machine} {visits : List Visit}

section

variable (h : Walks n f receiver id place m visits m')

include h

theorem Walks.le_place : ∀ visit ∈ visits, place ≤ visit.place := by
  induction h with
  | ends => exact fun _ hvisit => (List.not_mem_nil hvisit).elim
  | visits hplace _ _ _ _ ih =>
    refine List.forall_mem_cons.mpr ⟨hplace, fun visit hvisit => ?_⟩
    have hlt := ih visit hvisit
    omega

/-- Each place is visited once at most, in order. -/
theorem Walks.ordered : (visits.map Visit.place).Pairwise (· < ·) := by
  induction h with
  | ends => exact .nil
  | visits _ _ _ _ rest ih =>
    rw [List.map_cons, List.pairwise_cons]
    exact ⟨fun p hp => by
      obtain ⟨visit, hvisit, rfl⟩ := List.mem_map.mp hp
      exact rest.le_place visit hvisit, ih⟩

/-- A visit is one of the entry that is in its place then. -/
theorem Walks.entry : ∀ visit ∈ visits, entryAt? (visit.start.objectAt id) visit.place = some visit.entry := by
  induction h with
  | ends => exact fun _ hvisit => (List.not_mem_nil hvisit).elim
  | visits _ _ hentry _ _ ih => exact List.forall_mem_cons.mpr ⟨hentry, ih⟩

/-- **A place is visited** if there is an entry in it at its turn. -/
theorem Walks.mem_places {p : Nat} (hp : place ≤ p) :
    p ∈ visits.map Visit.place ↔ (entryAt? ((atTurn visits p m').objectAt id) p).isSome = true := by
  induction h with
  | @ends place m hgaps => simp [atTurn, hgaps p hp]
  | @visits place next entry m m₁ m' d v visits hplace hgaps hentry hcall rest ih =>
    rw [List.map_cons, List.mem_cons, atTurn, List.find?_cons]
    rcases Nat.lt_trichotomy p next with hlt | rfl | hgt
    · have hrest : p ∉ visits.map Visit.place := fun hmem => by
        obtain ⟨visit, hvisit, rfl⟩ := List.mem_map.mp hmem
        have hle := rest.le_place visit hvisit
        omega
      simp [hgaps p hp hlt, hrest, Nat.le_of_lt hlt, Nat.ne_of_lt hlt]
    · simp [hentry]
    · have hpast : ¬ p ≤ next := Nat.not_le.mpr hgt
      simp only [hpast, decide_false, Nat.ne_of_gt hgt, false_or]
      exact ih hgt

/-- If the places go on in all calls, they go on from any visit to any later one, and to the end. -/
theorem Walks.continues (hvisits : ∀ visit ∈ visits, Continues (visit.start.objectAt id) (visit.finish.objectAt id)) :
    (∀ moment ∈ moments visits m', Continues (m.objectAt id) (moment.objectAt id)) ∧
      (moments visits m').Pairwise fun m₁ m₂ => Continues (m₁.objectAt id) (m₂.objectAt id) := by
  induction h with
  | ends => exact ⟨List.forall_mem_singleton.mpr (.refl _), List.pairwise_singleton _ _⟩
  | visits _ _ _ _ _ ih =>
    obtain ⟨hfirst, hlater⟩ := List.forall_mem_cons.mp hvisits
    obtain ⟨hfrom, hpairs⟩ := ih hlater
    have hall := fun moment hmoment => hfirst.trans (hfrom moment hmoment)
    exact ⟨List.forall_mem_cons.mpr ⟨.refl _, hall⟩, List.pairwise_cons.mpr ⟨hall, hpairs⟩⟩

omit h in
/-- If the places go on in all calls, the walk does not leave an entry behind. -/
theorem Walks.visits_all (h : Walks n f receiver id 0 m visits m')
    (hpairs : (moments visits m').Pairwise fun m₁ m₂ => Continues (m₁.objectAt id) (m₂.objectAt id)) {p : Nat}
    (hp : (entryAt? (m'.objectAt id) p).isSome = true) : p ∈ visits.map Visit.place := by
  rw [h.mem_places (Nat.zero_le p), atTurn]
  cases hfind : visits.find? fun visit => p ≤ visit.place with
  | none => exact hp
  | some visit =>
    have hvisit := List.mem_of_find?_eq_some hfind
    have hle : p ≤ visit.place := by simpa using List.find?_some hfind
    have hcontinues : Continues (visit.start.objectAt id) (m'.objectAt id) :=
      (List.pairwise_append.mp hpairs).2.2 _ (List.mem_map_of_mem hvisit) _ List.mem_cons_self
    obtain ⟨entry, hentry⟩ := Option.isSome_iff_exists.mp hp
    obtain ⟨old, hold, -⟩ :=
      hcontinues.kept (hle.trans_lt (lt_size_of_entryAt? (h.entry visit hvisit))) hentry
    exact Option.isSome_iff_exists.mpr ⟨old, hold⟩

/-- The places go on in all calls of a walk whose deeds neither clear the object nor set it up. -/
theorem Walks.continues_visits (hid : id.index < m.heap.size) (hplain : IsPlain (m.objectAt id))
    (hallowed : ∀ event ∈ visits.flatMap Visit.deeds, ∃ e, event.Allowed e)
    (hkeeps : ∀ event ∈ visits.flatMap Visit.deeds, ¬ event.SetsUp id ∧ ¬ event.Clears id) :
    ∀ visit ∈ visits, Continues (visit.start.objectAt id) (visit.finish.objectAt id) := by
  induction h with
  | ends => exact fun _ hvisit => (List.not_mem_nil hvisit).elim
  | visits _ _ _ hcall _ ih =>
    rw [List.flatMap_cons] at hallowed hkeeps
    obtain ⟨hid', hplain', hcontinues⟩ := hcall.continues hid hplain
      (fun event he => hallowed event (List.mem_append_left _ he)) fun event he => hkeeps event (List.mem_append_left _ he)
    exact List.forall_mem_cons.mpr ⟨hcontinues, ih hid' hplain'
      (fun event he => hallowed event (List.mem_append_right _ he)) fun event he =>
        hkeeps event (List.mem_append_right _ he)⟩

end

end

/-! ## 4. `forEach` -/

/-- What the search for the next entry finds. -/
theorem nextEntry?_cases (o : Object) (place : Nat) :
    ( nextEntry? o place = none ∧ ∀ later, place ≤ later → entryAt? o later = none) ∨
      ∃ next entry, nextEntry? o place = some (entry, next + 1) ∧ place ≤ next ∧
        (∀ p, place ≤ p → p < next → entryAt? o p = none) ∧ entryAt? o next = some entry := by
  have hgap {p : Nat} (hp : place ≤ p) (h : ∀ hlt : p - place < ((walkedSlots o).extract place (walkedSlots o).size).size,
      ((walkedSlots o).extract place (walkedSlots o).size)[p - place].isSome = false) : entryAt? o p = none := by
    rw [entryAt?]
    by_cases hlt : p < (walkedSlots o).size
    · have hnone := h (by simp; omega)
      rw [Array.getElem_extract, Option.isSome_eq_false_iff, Option.isNone_iff_eq_none] at hnone
      simp only [Nat.add_sub_cancel' hp] at hnone
      rw [Array.getElem?_eq_getElem hlt, hnone]
      rfl
    · rw [Array.getElem?_eq_none (Nat.le_of_not_lt hlt)]
      rfl
  unfold nextEntry?
  dsimp only
  cases hfind : ((walkedSlots o).extract place (walkedSlots o).size).findIdx? Option.isSome with
  | none =>
    refine .inl ⟨rfl, fun later hlater => hgap hlater fun hlt => ?_⟩
    rw [Array.findIdx?_eq_none_iff] at hfind
    exact hfind _ (Array.getElem_mem hlt)
  | some i =>
    obtain ⟨hi, hsome, hbefore⟩ := Array.findIdx?_eq_some_iff_getElem.mp hfind
    rw [Array.getElem_extract] at hsome
    obtain ⟨entry, hentry⟩ := Option.isSome_iff_exists.mp hsome
    have hlt : place + i < (walkedSlots o).size := by
      simp at hi
      omega
    have hthere : (walkedSlots o)[place + i]?.join = some entry := by
      rw [Array.getElem?_eq_getElem hlt, hentry]
      rfl
    refine .inr ⟨place + i, entry, by rw [Option.bind_some, hthere]; rfl, Nat.le_add_right _ _, fun p hp hlt => ?_, hthere⟩
    refine hgap hp fun hin => ?_
    have hearlier := hbefore (p - place) (by omega)
    simpa using hearlier

end Collection

namespace Eval

open Collection

variable {n : Nat} {f receiver : Value} {id : ObjectId} {m m' : Machine} {d : Log}

/-- What the rounds of a loop visit, if each round ends the loop for lack of entries or visits the next one. -/
theorem walks_of_rounds {round : Nat → Eval (Flow Nat Unit)}
    (hround : ∀ {place : Nat} {m m₁ : Machine} {flow : Flow Nat Unit} {d : Log}, (round place).Does n m (.ok flow m₁) d →
      (flow = .leave () ∧ m₁ = m ∧ d = [] ∧ ∀ later, place ≤ later → entryAt? (m.objectAt id) later = none) ∨
      ∃ next entry v, flow = .proceed (next + 1) ∧ place ≤ next ∧
        (∀ p, place ≤ p → p < next → entryAt? (m.objectAt id) p = none) ∧ entryAt? (m.objectAt id) next = some entry ∧
        (callback f receiver #[entry.2, entry.1, .object id]).Does n m (.ok v m₁) d) :
    ∀ {fuel place : Nat} {m m' : Machine},
      Run.rounds (fun place => (round place).run (answers n)) fuel place m = .ok () m' →
        ∃ visits, Walks n f receiver id place m visits m' ∧
          Log.deeds (Run.roundsLog (fun place => (round place).run (answers n))
            (fun place => (round place).log (answers n) (logs n)) fuel place m) = visits.flatMap Visit.deeds
  | 0, _, _, _, h => nomatch h
  | fuel + 1, place, m, m', h => by
    rw [Run.rounds] at h
    rw [Run.roundsLog, Log.deeds, List.filter_append]
    obtain ⟨r, d, hdoes⟩ := (round place).exists_does n m
    have hdeeds : ((round place).log (answers n) (logs n) m).filter Event.isDeed = d := hdoes.deeds
    rw [hdeeds]
    have hresult := hdoes.result
    dsimp only at h
    rw [hresult] at h ⊢
    cases r with
    | error stop m₁ => cases h
    | ok flow m₁ =>
      rcases hround hdoes with ⟨rfl, rfl, rfl, hgaps⟩ | ⟨next, entry, v, rfl, hplace, hgaps, hentry, hcall⟩
      · cases h
        exact ⟨[], .ends hgaps, rfl⟩
      · dsimp only at h ⊢
        split at h
        · rename_i hcount
          obtain ⟨visits, hwalks, hrest⟩ := walks_of_rounds hround h
          refine ⟨_, .visits hplace hgaps hentry hcall hwalks, ?_⟩
          rw [if_pos hcount, List.flatMap_cons]
          exact congrArg (d ++ ·) hrest
        · cases h

/-- What the loop of `forEach` visits. -/
theorem walks_of_forEachEntry (h : (forEachEntry f receiver id (.object id)).Does n m (.ok () m') d) :
    ∃ visits, Walks n f receiver id 0 m visits m' ∧ d = visits.flatMap Visit.deeds := by
  obtain ⟨hresult, hdeeds⟩ := h
  rw [forEachEntry, deeds_eq_inside _ _ _ rfl, inside_loop] at hdeeds
  rw [← hdeeds]
  refine (walks_of_rounds (fun {place m m₁ flow d} hdoes => ?_) hresult).imp fun visits hvisits => hvisits
  have hdoes := hdoes.of_read
  rcases nextEntry?_cases (m.objectAt id) place with ⟨hnext, hgaps⟩ | ⟨next, entry, hnext, hplace, hgaps, hentry⟩
  · rw [hnext] at hdoes
    obtain ⟨hflow, rfl⟩ := hdoes.unique (does_pure n _ m)
    cases hflow
    exact .inl ⟨rfl, rfl, rfl, hgaps⟩
  · rw [hnext] at hdoes
    rcases hdoes.of_bind with ⟨s, _, _, herror⟩ | ⟨_, m₂, d₁, d₂, hcall, hlast, rfl⟩
    · cases herror
    obtain ⟨hflow, rfl⟩ := hlast.unique (does_pure n _ m₂)
    cases hflow
    rcases hcall.of_bind with ⟨s, _, _, herror⟩ | ⟨v, m₃, d₃, d₄, hcall, hunit, rfl⟩
    · cases herror
    obtain ⟨hflow, rfl⟩ := hunit.unique (does_pure n _ m₃)
    cases hflow
    exact .inr ⟨next, entry, v, rfl, hplace, hgaps, hentry, by simpa using hcall⟩

/-- A refusal gives no result. -/
theorem refuse_ne_ok {α : Type} {text : Eval String} {message : String → String} {answers : Answers} {a : α} :
    (do throwTypeError (message (← text)) : Eval α).run answers m ≠ .ok a m' := by
  intro h
  obtain ⟨_, _, _, h⟩ := run_bind_ok h
  obtain ⟨_, _, _, h⟩ := run_bind_ok h
  cases h

/-- What gives a result has not refused. -/
theorem Does.of_ite {α : Type} {x refuse : Eval α} {c : Prop} [Decidable c] {a : α}
    (h : (if c then x else refuse).Does n m (.ok a m') d) (hrefuse : refuse.run (answers n) m ≠ .ok a m') :
    x.Does n m (.ok a m') d := by
  split at h
  · exact h
  · exact absurd h.result hrefuse

/-- A receiver that is taken is used as it is. -/
theorem does_receiverCollection {kind : CollectionKind} {method : String} {id' : ObjectId}
    (h : (receiverCollection (.object id) kind method).Does n m (.ok id' m') d) : id' = id ∧ m' = m ∧ d = [] := by
  obtain ⟨hresult, rfl⟩ := (h.of_read.of_ite (x := pure id) refuse_ne_ok).unique (does_pure n id m)
  cases hresult
  exact ⟨rfl, rfl, rfl⟩

/-- To ask whether a value can be called does nothing. -/
theorem exists_does_isCallable (n : Nat) (v : Value) (m : Machine) : ∃ b, (isCallable v).Does n m (.ok b m) [] := by
  cases v <;> exact ⟨_, rfl, rfl⟩

/-- A function that is taken is used as it is. -/
theorem does_requireCallable {v : Value} {method : String} (h : (requireCallable v method).Does n m (.ok () m') d) :
    m' = m ∧ d = [] := by
  obtain ⟨b, hasked⟩ := exists_does_isCallable n v m
  obtain ⟨d', h, rfl⟩ := hasked.rest h
  obtain ⟨hresult, rfl⟩ := (h.of_ite (x := pure ()) refuse_ne_ok).unique (does_pure n () m)
  cases hresult
  exact ⟨rfl, rfl⟩

end Eval

namespace CollectionMethod

open Collection

/-- What a call of `forEach` comes to that returns. -/
theorem walks_of_forEach {kind : CollectionKind} {n : Nat} {m m' : Machine} {id : ObjectId} {args : Array Value}
    {v : Value} {d : Log} (h : (forEach.run kind (.object id) args).Does n m (.ok v m') d) :
    ∃ visits, Walks n (argument args 0) (argument args 1) id 0 m visits m' ∧ d = visits.flatMap Visit.deeds := by
  rcases h.of_bind with ⟨s, _, _, herror⟩ | ⟨id', m₁, d₁, d₂, hreceiver, hrest, rfl⟩
  · cases herror
  obtain ⟨rfl, rfl, rfl⟩ := Eval.does_receiverCollection hreceiver
  rcases hrest.of_bind with ⟨s, _, _, herror⟩ | ⟨⟨⟩, m₂, d₃, d₄, hcallable, hloop, rfl⟩
  · cases herror
  obtain ⟨rfl, rfl⟩ := Eval.does_requireCallable hcallable
  rcases hloop.of_bind with ⟨s, _, _, herror⟩ | ⟨⟨⟩, m₃, d₅, d₆, hwalk, hlast, rfl⟩
  · cases herror
  obtain ⟨hresult, rfl⟩ := hlast.unique (Eval.does_pure n _ m₃)
  cases hresult
  simpa using Eval.walks_of_forEachEntry hwalk

/-- **What `forEach` visits.** Let a call of `forEach` return. It has walked over the places of the collection and has
done nothing else: a place was visited, and once only, exactly if there was an entry in it at its turn. Unless some
deed of a call has cleared the collection or set it up anew, a place was that of one entry only throughout the walk, and
no entry is left that was not visited. -/
theorem forEach_visits {kind : CollectionKind} {m m' : Machine} {id : ObjectId} {args : Array Value} {v : Value}
    (n : Nat) (hm : m.WellFormed) (hpresent : ∀ id' ∈ id :: args.toList.flatMap Value.addresses, m.Present id')
    (hrun : (forEach.run kind (.object id) args).run (Eval.answers n) m = .ok v m') :
    ∃ visits, Walks n (argument args 0) (argument args 1) id 0 m visits m' ∧
      (forEach.run kind (.object id) args).deeds (Eval.answers n) (Eval.logs n) m = visits.flatMap Visit.deeds ∧
      (visits.map Visit.place).Pairwise (· < ·) ∧
      (∀ place, place ∈ visits.map Visit.place ↔
        (entryAt? ((atTurn visits place m').objectAt id) place).isSome = true) ∧
      (IsPlain (m.objectAt id) →
        (∀ event ∈ visits.flatMap Visit.deeds, ¬ event.SetsUp id ∧ ¬ event.Clears id) →
          ((moments visits m').Pairwise fun m₁ m₂ => Continues (m₁.objectAt id) (m₂.objectAt id)) ∧
          ∀ place, (entryAt? (m'.objectAt id) place).isSome = true → place ∈ visits.map Visit.place) := by
  obtain ⟨visits, hwalks, hdeeds⟩ := walks_of_forEach ⟨hrun, rfl⟩
  refine ⟨visits, hwalks, hdeeds, hwalks.ordered, fun place => hwalks.mem_places (Nat.zero_le place),
    fun hplain hkeeps => ?_⟩
  have hallowed : ∀ event ∈ visits.flatMap Visit.deeds, ∃ e, event.Allowed e := by
    refine Eval.Does.allowed ⟨hrun, hdeeds⟩ hm fun e he => ?_
    have hreceiver : Within e (Value.object id) := (he.object (hpresent id List.mem_cons_self)).1
    have hargs : Within e args := (within_values_iff args).mpr fun id' hid' =>
      (he.object (hpresent id' (List.mem_cons_of_mem _ hid'))).1
    exact ⟨_, _, _, tracks_run kind forEach hreceiver hargs⟩
  have hvisits := hwalks.continues_visits (hpresent id List.mem_cons_self).1 hplain hallowed hkeeps
  have hpairs := (hwalks.continues hvisits).2
  exact ⟨hpairs, fun place hplace => hwalks.visits_all hpairs hplace⟩

/-- A machine with empty objects in the place of the intrinsic ones, one for bindings, the function `push`, an array and
a map with one entry. -/
def walkMachine : Machine :=
  { heap := Array.replicate 23 {} ++ #[Eval.functionObject (.builtin (.array .push)), { sort := .array, elements := some #[] },
      { sort := .collection .map, mapEntries := some #[some (.null, .undefined)] }]
    bindings := ⟨22⟩ }

theorem walkMachine_wellFormed : walkMachine.WellFormed := by
  refine State.wellFormed_of_empty rfl rfl (fun i => Nat.lt_of_lt_of_le i.index_lt (by decide)) (by decide +kernel)
    (by decide +kernel) fun o ho c hc => ?_
  simp only [walkMachine, Array.mem_append, List.mem_toArray, List.mem_cons, List.not_mem_nil, or_false] at ho
  rcases ho with ho | rfl | rfl | rfl
  · obtain rfl := Array.eq_of_mem_replicate ho
    cases hc
  · cases hc
    trivial
  · cases hc
  · cases hc

theorem not_clears_of_leavesObject {id : ObjectId} {event : Event} (h : HostCall.leavesObject id event = true) :
    ¬ event.Clears id := by
  cases event with
  | finish x r => exact not_false
  | start x m =>
    cases x with
    | update u =>
      cases u with
      | object id' f => exact fun hclears => bne_iff_ne.mp h hclears.1
      | _ => exact not_false
    | _ => exact not_false

/-- The entry of the map is visited: its value is put into the array. -/
theorem forEach_visits_push : ∃ v m' visits,
    (forEach.run .map (.object ⟨25⟩) #[.object ⟨23⟩, .object ⟨24⟩]).run (Eval.answers 1) walkMachine = .ok v m' ∧
      Walks 1 (.object ⟨23⟩) (.object ⟨24⟩) ⟨25⟩ 0 walkMachine visits m' ∧
      ∀ place, (entryAt? (m'.objectAt ⟨25⟩) place).isSome = true → place ∈ visits.map Visit.place := by
  have hreturns : Eval.returns ((forEach.run .map (.object ⟨25⟩) #[.object ⟨23⟩, .object ⟨24⟩]).run (Eval.answers 1)
      walkMachine) = true := by decide +kernel
  have hleaves : ((forEach.run .map (.object ⟨25⟩) #[.object ⟨23⟩, .object ⟨24⟩]).deeds (Eval.answers 1) (Eval.logs 1)
      walkMachine).all (HostCall.leavesObject ⟨25⟩) = true := by decide +kernel
  obtain ⟨v, m', hrun⟩ := Eval.exists_of_returns hreturns
  obtain ⟨visits, hwalks, hdeeds, -, -, hall⟩ :=
    forEach_visits 1 walkMachine_wellFormed (State.present_of_empty rfl (by decide)) hrun
  refine ⟨v, m', visits, hrun, hwalks, (hall (.inr rfl) fun event he => ?_).2⟩
  rw [← hdeeds] at he
  have hleaves := List.all_eq_true.mp hleaves event he
  exact ⟨(HostCall.leavesObject_spec hleaves).1, not_clears_of_leavesObject hleaves⟩

end CollectionMethod

end GuestScript
