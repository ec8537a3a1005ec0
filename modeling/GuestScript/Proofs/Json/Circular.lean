import GuestScript.Proofs.Json.Writing
import GuestScript.Proofs.Reach.Prototype

/-!
# Circular values

A value that is written as JSON text is gone through in depth, with the objects around the place that is reached on a
list. `jsonProperty` gives up with a fault when it meets one of them again. This finds every circle and nothing else: the
fault is raised exactly when an object is reachable from itself below the value (`State.Circular`), however often what is
not circular is shared, and otherwise there is a text. Either way an end is reached after a number of steps that depends on
the value and the heap only (`Eval.stringify_circular`).

The values below an object are the elements of an array and the enumerable own properties of any other object; functions
are not gone into. Objects that convert themselves, accessors and wrapped primitives are left out (`State.Plain`).

How deep the walk goes is bounded by the number of objects, since those on the list differ.
-/

namespace GuestScript

variable {s : State} {id id' : ObjectId} {v w : Value} {around : List ObjectId}

/-! ## 1. What is below a value -/

namespace State

/-- The values that are written as parts of an object: the elements of an array, or the enumerable properties. -/
inductive Shown (s : State) (id : ObjectId) : Value → Prop where
  | element {es : Array Value} {v : Value} (hes : (s.objectAt id).elements = some es) (hv : v ∈ es.toList) : Shown s id v
  | property {name : String} {p : Property} {v : Value} {writable : Bool} (hplain : (s.objectAt id).elements = none)
      (hname : name ∈ (s.objectAt id).enumerableNames) (hown : (s.objectAt id).own? (.string name) = some p)
      (hp : p.content = .data v writable) : Shown s id v

/-- Whether an object is gone into. -/
def Entered (s : State) (id : ObjectId) : Prop :=
  (s.objectAt id).callable = none

/-- The objects that are met below a value, itself among them. -/
inductive Met (s : State) : Value → ObjectId → Prop where
  | here {id : ObjectId} : Met s (.object id) id
  | inside {id id' : ObjectId} {v : Value} (h : s.Entered id) (hv : s.Shown id v) (hmet : Met s v id') :
      Met s (.object id) id'

/-- Whether an object is reachable from itself below a value. -/
def Circular (s : State) (v : Value) : Prop :=
  ∃ id w, s.Met v id ∧ s.Entered id ∧ s.Shown id w ∧ s.Met w id

/-- A value of the heap that cannot be called. -/
def Inert (s : State) (v : Value) : Prop :=
  ∀ id, v = .object id → id.index < s.heap.size ∧ s.Entered id

/-- A plain object, an array or a function without a conversion: the shown properties of an object that is gone into hold
data, there is no wrapped primitive, and a `toJSON` of its own or of an object that it inherits from is data and no
function. -/
structure Plain (s : State) (id : ObjectId) : Prop where
  inHeap : id.index < s.heap.size
  chainInHeap : ∀ p, s.Inherits id p → p.index < s.heap.size
  number : (s.objectAt id).sort ≠ .number
  string : (s.objectAt id).sort ≠ .string
  boolean : (s.objectAt id).sort ≠ .boolean
  isArray : s.Entered id → (s.objectAt id).isArray = (s.objectAt id).elements.isSome
  data : s.Entered id → (s.objectAt id).elements = none → ∀ name ∈ (s.objectAt id).enumerableNames, ∀ p,
    (s.objectAt id).own? (.string name) = some p → ∃ v writable, p.content = .data v writable
  unconverted : ∀ q, q = id ∨ s.Inherits id q → ∀ p, (s.objectAt q).own? (.string "toJSON") = some p →
    ∃ v writable, p.content = .data v writable ∧ s.Inert v

/-- What is met again below a value, if the objects around it are on a list. -/
inductive Closes (s : State) : List ObjectId → Value → Prop where
  | here {around : List ObjectId} {id : ObjectId} (h : s.Entered id) (hmem : id ∈ around) : Closes s around (.object id)
  | inside {around : List ObjectId} {id : ObjectId} {v : Value} (h : s.Entered id) (hv : s.Shown id v)
      (hclose : Closes s (id :: around) v) : Closes s around (.object id)

/-- Whether the property with a name is met again. -/
def ClosesAt (s : State) (around : List ObjectId) (id : ObjectId) (name : String) : Prop :=
  ∃ p v writable, (s.objectAt id).own? (.string name) = some p ∧ p.content = .data v writable ∧ s.Closes around v

theorem Closes.exists_met (h : s.Closes around v) :
    ∃ id, s.Met v id ∧ (id ∈ around ∨ s.Entered id ∧ ∃ w, s.Shown id w ∧ s.Met w id) := by
  induction h with
  | @here _ id h hmem => exact ⟨id, .here, .inl hmem⟩
  | @inside around id v h hv _ ih =>
    obtain ⟨id', hmet, hmem | hcircle⟩ := ih
    · rcases List.mem_cons.mp hmem with rfl | hmem
      · exact ⟨id', .here, .inr ⟨h, v, hv, hmet⟩⟩
      · exact ⟨id', .inside h hv hmet, .inl hmem⟩
    · exact ⟨id', .inside h hv hmet, .inr hcircle⟩

/-- A circle below a value is met, whatever objects are around: the walk down to it and along it passes different objects
until it meets one again. -/
theorem closes_of_circle (hentered : s.Entered id) (hcircle : s.Shown id w) (hback : s.Met w id) : ∀ (gas : Nat)
    {around : List ObjectId} {v : Value}, around.Nodup → (∀ id ∈ around, id.index < s.heap.size) →
    s.heap.size ≤ around.length + gas → (∀ id, s.Met v id → id.index < s.heap.size) → s.Met v id → s.Closes around v := by
  intro gas
  induction gas with
  | zero =>
    intro around v hnodup hinside hgas hheap hmet
    obtain ⟨id', rfl, hentered'⟩ : ∃ id', v = .object id' ∧ s.Entered id' := by
      cases hmet with
      | here => exact ⟨_, rfl, hentered⟩
      | inside h => exact ⟨_, rfl, h⟩
    by_cases hmem : id' ∈ around
    · exact .here hentered' hmem
    · have := (cons_of_notMem hnodup hinside hmem (hheap id' .here)).2.2
      omega
  | succ gas ih =>
    intro around v hnodup hinside hgas hheap hmet
    -- Whatever the value is, the circle is below one of its parts.
    obtain ⟨id', w', rfl, hentered', hshown, hmet'⟩ : ∃ id' w', v = .object id' ∧ s.Entered id' ∧ s.Shown id' w' ∧
        s.Met w' id := by
      cases hmet with
      | here => exact ⟨id, w, rfl, hentered, hcircle, hback⟩
      | inside h hv hmet' => exact ⟨_, _, rfl, h, hv, hmet'⟩
    by_cases hmem : id' ∈ around
    · exact .here hentered' hmem
    · obtain ⟨hnodup', hinside', -⟩ := cons_of_notMem hnodup hinside hmem (hheap id' .here)
      refine .inside hentered' hshown (ih hnodup' hinside' ?_ (fun i hi => hheap i (.inside hentered' hshown hi)) hmet')
      rw [List.length_cons]
      omega

/-- With nothing around, what is met again is what is on a circle. -/
theorem closes_iff (hheap : ∀ id, s.Met v id → id.index < s.heap.size) : s.Closes [] v ↔ s.Circular v := by
  constructor
  · intro h
    obtain ⟨id, hmet, hmem | ⟨hentered, w, hshown, hback⟩⟩ := h.exists_met
    · exact absurd hmem List.not_mem_nil
    · exact ⟨id, w, hmet, hentered, hshown, hback⟩
  · rintro ⟨id, w, hmet, hentered, hshown, hback⟩
    exact closes_of_circle hentered hshown hback s.heap.size .nil nofun (Nat.le_add_left _ _) hheap hmet

/-! ## 2. Reading the objects -/

/-- Whether all that a state has on its heap is on that of a machine. -/
def Kept (s : State) (m : Machine) : Prop :=
  ∀ id, id.index < s.heap.size → m.objectAt id = s.objectAt id

variable {m : Machine}

/-- A property that is found is a property of the object or of one that it inherits from. -/
theorem Kept.lookupFrom (hm : s.Kept m) {key : Key} {p : Property} : ∀ {fuel : Nat} {id : ObjectId}, id.index < s.heap.size →
    (∀ q, s.Inherits id q → q.index < s.heap.size) → m.lookupFrom key fuel id = some p →
    ∃ q, (q = id ∨ s.Inherits id q) ∧ (s.objectAt q).own? key = some p
  | fuel + 1, id, hid, hchain, h => by
    rw [State.lookupFrom, hm id hid] at h
    cases hown : (s.objectAt id).own? key with
    | some p' =>
      rw [hown] at h
      exact ⟨id, .inl rfl, hown.trans h⟩
    | none =>
      rw [hown] at h
      cases hparent : (s.objectAt id).prototype with
      | none =>
        rw [hparent] at h
        cases h
      | some parent =>
        rw [hparent] at h
        obtain ⟨q, hq, hown'⟩ := hm.lookupFrom (hchain parent (.link hparent))
          (fun q hq => hchain q (.step hparent hq)) h
        exact ⟨q, .inr (hq.elim (fun h => h ▸ .link hparent) (.step hparent)), hown'⟩

end State

namespace Eval

open State

variable {answers : Answers} {m : Machine} {name : String}

theorem run_isCallable_of_inert (hm : s.Kept m) (hv : s.Inert v) : (isCallable v).run answers m = .ok false m := by
  cases v with
  | object id =>
    obtain ⟨hid, hentered⟩ := hv id rfl
    have hcallable : (m.objectAt id).callable = none := by rw [hm id hid, hentered]
    simp [isCallable, callable?, object, bind, pure, run, hcallable]
  | _ => rfl

/-- A plain object is not converted. -/
theorem run_jsonConverted_of_plain (hm : s.Kept m) (h : s.Plain id) :
    (jsonConverted name (.object id)).run answers m = .ok (.object id) m := by
  have hget : ∃ w, (getNamed (.object id) "toJSON").run answers m = .ok w m ∧ s.Inert w := by
    have hread : (getNamed (.object id) "toJSON").run answers m =
        (readProperty (.object id) (m.lookup? id (.string "toJSON"))).run answers m := rfl
    rw [hread]
    cases hlookup : m.lookup? id (.string "toJSON") with
    | none => exact ⟨.undefined, rfl, nofun⟩
    | some p =>
      obtain ⟨q, hq, hown⟩ := hm.lookupFrom h.inHeap h.chainInHeap hlookup
      obtain ⟨w, writable, hp, hw⟩ := h.unconverted q hq p hown
      refine ⟨w, ?_, hw⟩
      simp only [readProperty, hp]
      rfl
  obtain ⟨w, hw, hinert⟩ := hget
  rw [jsonConverted, if_pos (by rfl), run_bind_of_ok hw, run_bind_of_ok (run_isCallable_of_inert hm hinert)]
  rfl

/-- What is written for a plain object is the object itself. -/
theorem run_jsonForm_of_plain {style : JsonStyle} (hstyle : style.replacer = none) (hm : s.Kept m) (h : s.Plain id)
    (holder : Value) : (jsonForm style holder name (.object id)).run answers m = .ok (.object id) m := by
  have hreplaced : (jsonReplaced style holder name (.object id)).run answers m = .ok (.object id) m := by
    rw [jsonReplaced, hstyle]
    rfl
  have hread : (object id).run answers m = .ok (s.objectAt id) m :=
    congrArg (EStateM.Result.ok · m) (hm id h.inHeap)
  rw [jsonForm, run_bind_of_ok (run_jsonConverted_of_plain hm h), run_bind_of_ok hreplaced, jsonUnwrapped,
    run_bind_of_ok hread]
  simp [h.number, h.string, h.boolean, pure, run]

/-! ## 3. Ends -/

/-- The message of the fault. -/
def circular : String :=
  "Converting circular structure to JSON"

/-- Whether an action comes to an end within some steps wherever the objects of a state are, as long as the limits allow
the steps: it fails for a circle if there is one, and otherwise it gives something. It changes nothing but the steps. -/
def Settles {α : Type} (answers : Answers) (s : State) (n : Nat) (closes : Prop) (x : Eval α) : Prop :=
  ∀ m : Machine, s.Kept m → m.Affords n → ∃ i ≤ n,
    (closes → x.run answers m = (throwTypeError circular : Eval α).run answers (m.advance i)) ∧
      (¬ closes → ∃ a, x.run answers m = .ok a (m.advance i))

variable {α β : Type} {n n' : Nat} {p q : Prop}

theorem kept_advance (hm : s.Kept m) (k : Nat) : s.Kept (m.advance k) :=
  hm

theorem Settles.congr {x : Eval α} (h : Settles answers s n p x) (hpq : p ↔ q) : Settles answers s n q x := by
  obtain rfl : p = q := propext hpq
  exact h

theorem settles_pure (a : α) : Settles answers s 0 False (pure a) :=
  fun _ _ _ => ⟨0, Nat.le_refl _, False.elim, fun _ => ⟨a, rfl⟩⟩

theorem settles_throw (hp : p) : Settles answers s 0 p (throwTypeError circular : Eval α) :=
  fun _ _ _ => ⟨0, Nat.le_refl _, fun _ => rfl, fun h => absurd hp h⟩

/-- The steps of two actions in a row add up. -/
theorem Settles.bind {x : Eval α} {f : α → Eval β} (hx : Settles answers s n p x) (hf : ∀ a, Settles answers s n' q (f a)) :
    Settles answers s (n + n') (p ∨ q) (x >>= f) := by
  intro m hm hbudget
  obtain ⟨i, hi, hclose, hopen⟩ := hx m hm (hbudget.mono (Nat.le_add_right _ _))
  by_cases hp : p
  · have hthrown : (throwTypeError circular : Eval α).run answers (m.advance i) = .error _ _ := rfl
    refine ⟨i, Nat.le_trans hi (Nat.le_add_right _ _), fun _ => ?_, fun h => absurd (.inl hp) h⟩
    rw [run_bind_of_error ((hclose hp).trans hthrown)]
    rfl
  · obtain ⟨a, ha⟩ := hopen hp
    have hrest : (m.advance i).Affords n' := Machine.Affords.advance (hbudget.mono (Nat.add_le_add_right hi n'))
    obtain ⟨j, hj, hclose', hopen'⟩ := hf a (m.advance i) (kept_advance hm i) hrest
    rw [Machine.advance_advance] at hclose' hopen'
    refine ⟨i + j, Nat.add_le_add hi hj, fun h => ?_, fun h => ?_⟩ <;> rw [run_bind_of_ok ha]
    · exact hclose' (h.resolve_left hp)
    · exact hopen' fun hq => h (.inr hq)

/-- Whether an action only looks at the objects of a state, and gives a value. -/
def Looks {α : Type} (answers : Answers) (s : State) (x : Eval α) (a : α) : Prop :=
  ∀ m : Machine, s.Kept m → x.run answers m = .ok a m

/-- An action that only looks comes first. -/
theorem Settles.behind {x : Eval α} {f : α → Eval β} {a : α} (hx : Looks answers s x a)
    (hf : Settles answers s n p (f a)) : Settles answers s n p (x >>= f) := by
  intro m hm hbudget
  rw [run_bind_of_ok (hx m hm)]
  exact hf m hm hbudget

theorem settles_charge : Settles answers s 1 False charge :=
  fun _ _ hbudget => ⟨1, Nat.le_refl _, False.elim, fun _ => ⟨(), Machine.charged_of_affords (n := 0) hbudget⟩⟩

variable {closes : Value → Prop} {writer : (String → Value → Eval (Option String)) → Prop}

/-- The elements of an array are written until one of them is on a circle, within some steps that are the same for all
ways to write them. -/
theorem settles_jsonElements : ∀ {vs : List Value},
    (∀ v ∈ vs, ∃ n, ∀ write, writer write → ∀ name, Settles answers s n (closes v) (write name v)) →
    ∃ n, ∀ write, writer write → ∀ i acc, Settles answers s n (∃ v ∈ vs, closes v) (jsonElements write vs i acc)
  | [], _ => ⟨0, fun _ _ _ acc => (settles_pure acc.reverse).congr (by simp)⟩
  | v :: vs, h => by
    obtain ⟨n, hv⟩ := h v (List.mem_cons_self ..)
    obtain ⟨n', hvs⟩ := settles_jsonElements fun w hw => h w (List.mem_cons_of_mem _ hw)
    refine ⟨n + n', fun write hwrite i acc => ?_⟩
    exact ((hv write hwrite (toString i)).bind fun part => hvs write hwrite (i + 1) (part.getD "null" :: acc)).congr (by simp)

/-- The properties of an object are written until one of them is on a circle. -/
theorem settles_jsonProperties {target : Value} {meets : String → Prop} : ∀ {names : List String},
    (∀ name ∈ names, ∃ v n, Looks answers s (getNamed target name) v ∧
      ∀ write, writer write → Settles answers s n (meets name) (write name v)) →
    ∃ n, ∀ write, writer write → ∀ separator acc,
      Settles answers s n (∃ name ∈ names, meets name) (jsonProperties write target separator names acc)
  | [], _ => ⟨0, fun _ _ _ acc => (settles_pure acc.reverse).congr (by simp)⟩
  | name :: names, h => by
    obtain ⟨v, n, hget, hv⟩ := h name (List.mem_cons_self ..)
    obtain ⟨n', hnames⟩ := settles_jsonProperties fun name' hname' => h name' (List.mem_cons_of_mem _ hname')
    have hor : (meets name ∨ ∃ name ∈ names, meets name) ↔ ∃ name' ∈ name :: names, meets name' := by simp
    refine ⟨n + n', fun write hwrite separator acc => ?_⟩
    refine Settles.behind hget (((hv write hwrite).bind fun part => ?_).congr hor)
    cases part with
    | some text => exact hnames write hwrite separator _
    | none => exact hnames write hwrite separator _

/-! ## 4. Writing -/

theorem looks_object (hid : id.index < s.heap.size) : Looks answers s (object id) (s.objectAt id) :=
  fun m hm => congrArg (EStateM.Result.ok · m) (hm id hid)

theorem looks_getNamed {p : Property} {writable : Bool} (hid : id.index < s.heap.size)
    (hown : (s.objectAt id).own? (.string name) = some p) (hp : p.content = .data v writable) :
    Looks answers s (getNamed (.object id) name) v := by
  intro m hm
  have hlook : (lookup? id (.string name)).run answers m = .ok (some p) m := by
    refine congrArg (EStateM.Result.ok · m) (State.lookupFrom_of_own ?_ _)
    exact (congrArg (·.own? (.string name)) (hm id hid)).trans hown
  rw [getNamed, get, run_bind_of_ok hlook]
  simp only [readProperty, hp]
  rfl

/-- Whether values below a heap are written to an end, when no more than so many of its objects are not around. -/
def SettlesBelow (answers : Answers) (s : State) (style : JsonStyle) (gas : Nat) : Prop :=
  ∀ {around : List ObjectId} {v : Value}, around.Nodup → (∀ id ∈ around, id.index < s.heap.size) →
    s.heap.size ≤ around.length + gas → (∀ id, s.Met v id → s.Plain id) → ∃ n, ∀ fuel indent holder name, gas < fuel →
      Settles answers s n (s.Closes around v) (jsonProperty style fuel around indent holder name v)

variable {style : JsonStyle} {gas fuel : Nat} {indent : String} {holder : Value}

theorem looks_jsonForm_leaf (hstyle : style.replacer = none) (hv : ∀ id, v ≠ .object id) :
    Looks answers s (jsonForm style holder name v) v := by
  intro m _
  have hconverted : (jsonConverted name v).run answers m = .ok v m := by
    cases v with
    | object id => exact absurd rfl (hv id)
    | _ => rfl
  have hreplaced : (jsonReplaced style holder name v).run answers m = .ok v m := by
    rw [jsonReplaced, hstyle]
    rfl
  rw [jsonForm, run_bind_of_ok hconverted, run_bind_of_ok hreplaced]
  cases v with
  | object id => exact absurd rfl (hv id)
  | _ => rfl

/-- What has no parts is written in one step. -/
theorem settles_jsonProperty_leaf (hstyle : style.replacer = none) (hv : ∀ id, v ≠ .object id) :
    Settles answers s 1 (s.Closes around v) (jsonProperty style (fuel + 1) around indent holder name v) := by
  have hopen : ¬ s.Closes around v := by
    intro h
    cases h with
    | here => exact hv _ rfl
    | inside => exact hv _ rfl
  have hbehind : Settles answers s (1 + 0) (False ∨ False) (jsonProperty style (fuel + 1) around indent holder name v) := by
    refine settles_charge.bind fun _ => Settles.behind (looks_jsonForm_leaf hstyle hv) ?_
    cases v with
    | object id => exact absurd rfl (hv id)
    | _ => exact settles_pure _
  exact hbehind.congr (iff_of_false (not_or.mpr ⟨id, id⟩) hopen)

/-- How the parts of an object are written. -/
def PartWriter (style : JsonStyle) (gas : Nat) (around : List ObjectId) (holder : Value)
    (write : String → Value → Eval (Option String)) : Prop :=
  ∃ fuel indent, gas ≤ fuel ∧ write = jsonProperty style fuel around indent holder

/-- Whether all parts of an object are written to an end. -/
def SettlesParts (answers : Answers) (s : State) (style : JsonStyle) (gas : Nat) (around : List ObjectId)
    (id : ObjectId) : Prop :=
  ∀ v, s.Shown id v → ∃ n, ∀ write, PartWriter style gas around (.object id) write → ∀ name,
    Settles answers s n (s.Closes around v) (write name v)

variable {es : Array Value}

theorem SettlesParts.array (h : SettlesParts answers s style gas around id) (hid : id.index < s.heap.size)
    (hes : (s.objectAt id).elements = some es) : ∃ n, ∀ write indent, PartWriter style gas around (.object id) write →
      Settles answers s n (∃ v, s.Shown id v ∧ s.Closes around v) (do
        let parts ← jsonElements write (← listOf (.object id)).toList 0 []
        pure (some (style.wrap "[" "]" parts indent))) := by
  have hlist : Looks answers s (listOf (.object id)) es := by
    intro m hm
    rw [listOf, run_bind_of_ok (looks_object hid m hm), hes]
    rfl
  obtain ⟨n, hn⟩ := settles_jsonElements fun v hv => h v (.element hes hv)
  have hshown : (∃ v ∈ es.toList, s.Closes around v) ↔ ∃ v, s.Shown id v ∧ s.Closes around v := by
    refine exists_congr fun v => and_congr_left fun _ => ⟨.element hes, fun hv => ?_⟩
    cases hv with
    | element hes' hv => exact Option.some.inj (hes.symm.trans hes') ▸ hv
    | property hplain => exact absurd (hes.symm.trans hplain) (Option.some_ne_none es)
  refine ⟨n + 0, fun write indent hwrite => Settles.behind hlist ?_⟩
  exact ((hn write hwrite 0 []).bind fun parts => settles_pure _).congr ((or_iff_left not_false).trans hshown)

/-- A name that is listed is the name of an own property. -/
theorem own?_of_enumerable {o : Object} (h : name ∈ o.enumerableNames) : ∃ p, o.own? (.string name) = some p := by
  have henumerable := (List.mem_filter.mp h).2
  unfold Object.isEnumerable at henumerable
  split at henumerable
  · exact ⟨_, ‹_›⟩
  · cases henumerable

theorem SettlesParts.object (h : SettlesParts answers s style gas around id) (hplain : s.Plain id)
    (hentered : s.Entered id) (hes : (s.objectAt id).elements = none) : ∃ n, ∀ write separator indent,
      PartWriter style gas around (.object id) write → Settles answers s n (∃ v, s.Shown id v ∧ s.Closes around v) (do
        let parts ← jsonProperties write (.object id) separator (s.objectAt id).enumerableNames []
        pure (some (style.wrap "\x7b" "\x7d" parts indent))) := by
  have hnames : ∀ name ∈ (s.objectAt id).enumerableNames, ∃ v n,
      Looks answers s (getNamed (.object id) name) v ∧
        ∀ write, PartWriter style gas around (.object id) write →
          Settles answers s n (s.ClosesAt around id name) (write name v) := by
    intro name hname
    obtain ⟨p, hown⟩ := own?_of_enumerable hname
    obtain ⟨v, writable, hp⟩ := hplain.data hentered hes name hname p hown
    obtain ⟨n, hn⟩ := h v (.property hes hname hown hp)
    refine ⟨v, n, looks_getNamed hplain.inHeap hown hp, fun write hwrite => (hn write hwrite name).congr ?_⟩
    refine ⟨fun hclose => ⟨p, v, writable, hown, hp, hclose⟩, ?_⟩
    rintro ⟨p', v', writable', hown', hp', hclose⟩
    obtain rfl : p = p' := Option.some.inj (hown.symm.trans hown')
    have hsame := hp.symm.trans hp'
    cases hsame
    exact hclose
  obtain ⟨n, hn⟩ := settles_jsonProperties hnames
  have hshown : (∃ name ∈ (s.objectAt id).enumerableNames, s.ClosesAt around id name) ↔
      ∃ v, s.Shown id v ∧ s.Closes around v := by
    constructor
    · rintro ⟨name, hname, p, v, writable, hown, hp, hclose⟩
      exact ⟨v, .property hes hname hown hp, hclose⟩
    · rintro ⟨v, hv, hclose⟩
      cases hv with
      | element hes' => exact absurd (hes'.symm.trans hes) (Option.some_ne_none _)
      | property _ hname hown hp => exact ⟨_, hname, _, v, _, hown, hp, hclose⟩
  refine ⟨n + 0, fun write separator indent hwrite => ?_⟩
  exact ((hn write hwrite separator []).bind fun parts => settles_pure _).congr ((or_iff_left not_false).trans hshown)

/-- An array without elements is written in one step. -/
theorem run_jsonProperty_empty (hstyle : style.replacer = none) (hm : s.Kept m) (hplain : s.Plain id)
    (hentered : s.Entered id) (hes : (s.objectAt id).elements = some #[]) (hmem : id ∉ around) (hbudget : m.Affords 1) :
    (jsonProperty style (fuel + 1) around indent holder name (.object id)).run answers m =
      .ok (some "[]") (m.advance 1) := by
  have hcharge : charge.run answers m = .ok () (m.advance 1) := Machine.charged_of_affords (n := 0) hbudget
  have hread : (object id).run answers (m.advance 1) = .ok (s.objectAt id) (m.advance 1) :=
    looks_object hplain.inHeap _ (kept_advance hm 1)
  have harray : (s.objectAt id).isArray = true := by rw [hplain.isArray hentered, hes]; rfl
  have hcallable : ¬ (s.objectAt id).callable.isSome = true := by rw [show _ = _ from hentered]; nofun
  have hlist : (listOf (.object id)).run answers (m.advance 1) = .ok #[] (m.advance 1) := by
    rw [listOf, run_bind_of_ok hread, hes]
    rfl
  rw [jsonProperty, run_bind_of_ok hcharge,
    run_bind_of_ok (run_jsonForm_of_plain hstyle (kept_advance hm 1) hplain holder)]
  simp only
  rw [run_bind_of_ok hread, if_neg hcallable, if_neg fun h => hmem (List.contains_iff_mem.mp h), if_pos harray,
    run_bind_of_ok hlist]
  rfl

/-- A step is counted, and a plain object is written as it is. -/
theorem settles_start (hstyle : style.replacer = none) (hplain : s.Plain id)
    (h : Settles answers s n p (if (s.objectAt id).callable.isSome then pure none
      else if around.contains id then throwTypeError circular
      else if (s.objectAt id).isArray then do
        let parts ← jsonElements (jsonProperty style fuel (id :: around) (indent ++ style.gap) (.object id))
          (← listOf (.object id)).toList 0 []
        pure (some (style.wrap "[" "]" parts indent))
      else do
        let parts ← jsonProperties (jsonProperty style fuel (id :: around) (indent ++ style.gap) (.object id)) (.object id)
          (if style.gap.isEmpty then ":" else ": ") (style.allowed.getD (s.objectAt id).enumerableNames) []
        pure (some (style.wrap "\x7b" "\x7d" parts indent)))) :
    Settles answers s (1 + n) p (jsonProperty style (fuel + 1) around indent holder name (.object id)) := by
  have hbehind : Settles answers s (1 + n) (False ∨ p)
      (jsonProperty style (fuel + 1) around indent holder name (.object id)) := by
    refine settles_charge.bind fun _ => ?_
    exact Settles.behind (fun m hm => run_jsonForm_of_plain hstyle hm hplain holder)
      (Settles.behind (looks_object hplain.inHeap) h)
  exact hbehind.congr (or_iff_right not_false)

/-- An object is written to an end if its parts are, in front of it and what is around it. -/
theorem settles_object (hstyle : style.replacer = none) (hallowed : style.allowed = none)
    (hplain : s.Plain id) (hparts : s.Entered id → id ∉ around → SettlesParts answers s style gas (id :: around) id) :
    ∃ n, ∀ fuel indent holder name, gas ≤ fuel → Settles answers s n (s.Closes around (.object id))
      (jsonProperty style (fuel + 1) around indent holder name (.object id)) := by
  by_cases hentered : s.Entered id
  swap
  · refine ⟨1 + 0, fun fuel indent holder name _ => settles_start hstyle hplain ?_⟩
    have hopen : ¬ s.Closes around (.object id) := by
      intro h
      cases h <;> contradiction
    rw [if_pos (Option.isSome_iff_ne_none.mpr hentered)]
    exact (settles_pure none).congr (iff_of_false nofun hopen)
  have hcallable : ¬ (s.objectAt id).callable.isSome = true := by
    rw [show (s.objectAt id).callable = none from hentered]
    nofun
  by_cases hmem : id ∈ around
  · refine ⟨1 + 0, fun fuel indent holder name _ => settles_start hstyle hplain ?_⟩
    rw [if_neg hcallable, if_pos (List.contains_iff_mem.mpr hmem)]
    exact settles_throw (.here hentered hmem)
  have haround : ¬ around.contains id = true := fun h => hmem (List.contains_iff_mem.mp h)
  have hinside : (∃ v, s.Shown id v ∧ s.Closes (id :: around) v) ↔ s.Closes around (.object id) := by
    constructor
    · rintro ⟨v, hv, hclose⟩
      exact .inside hentered hv hclose
    · rintro (⟨_, h⟩ | ⟨_, hv, hclose⟩)
      · exact absurd h hmem
      · exact ⟨_, hv, hclose⟩
  have hwriter : ∀ {fuel : Nat} {indent : String}, gas ≤ fuel → PartWriter style gas (id :: around) (.object id)
      (jsonProperty style fuel (id :: around) indent (.object id)) := fun hfuel => ⟨_, _, hfuel, rfl⟩
  cases hes : (s.objectAt id).elements with
  | some es =>
    have harray : (s.objectAt id).isArray = true := by rw [hplain.isArray hentered, hes]; rfl
    obtain ⟨n, hn⟩ := (hparts hentered hmem).array hplain.inHeap hes
    refine ⟨1 + n, fun fuel indent holder name hfuel => settles_start hstyle hplain ?_⟩
    rw [if_neg hcallable, if_neg haround, if_pos harray]
    exact (hn _ indent (hwriter hfuel)).congr hinside
  | none =>
    have harray : ¬ (s.objectAt id).isArray = true := by rw [hplain.isArray hentered, hes]; nofun
    obtain ⟨n, hn⟩ := (hparts hentered hmem).object hplain hentered hes
    refine ⟨1 + n, fun fuel indent holder name hfuel => settles_start hstyle hplain ?_⟩
    rw [if_neg hcallable, if_neg haround, if_neg harray, hallowed]
    exact (hn _ _ indent (hwriter hfuel)).congr hinside

/-- What has parts is written to an end if they are, and what has none in any case. -/
theorem settles_value (hstyle : style.replacer = none) (hallowed : style.allowed = none)
    (hplain : ∀ id, v = .object id → s.Plain id)
    (hparts : ∀ id, v = .object id → s.Entered id → id ∉ around → SettlesParts answers s style gas (id :: around) id) :
    ∃ n, ∀ fuel indent holder name, gas < fuel →
      Settles answers s n (s.Closes around v) (jsonProperty style fuel around indent holder name v) := by
  by_cases hv : ∃ id, v = .object id
  · obtain ⟨id, rfl⟩ := hv
    obtain ⟨n, hn⟩ := settles_object hstyle hallowed (hplain id rfl) (hparts id rfl)
    refine ⟨n, fun fuel indent holder name hfuel => ?_⟩
    obtain ⟨fuel, rfl⟩ : ∃ fuel', fuel = fuel' + 1 := ⟨fuel - 1, (Nat.sub_add_cancel (Nat.zero_lt_of_lt hfuel)).symm⟩
    exact hn fuel indent holder name (Nat.le_of_lt_succ hfuel)
  · refine ⟨1, fun fuel indent holder name hfuel => ?_⟩
    obtain ⟨fuel, rfl⟩ : ∃ fuel', fuel = fuel' + 1 := ⟨fuel - 1, (Nat.sub_add_cancel (Nat.zero_lt_of_lt hfuel)).symm⟩
    exact settles_jsonProperty_leaf hstyle fun id h => hv ⟨id, h⟩

/-- The walk into a value comes to an end: the objects around it differ, so there are no more of them than objects. -/
theorem settlesBelow (hstyle : style.replacer = none) (hallowed : style.allowed = none) :
    ∀ gas : Nat, SettlesBelow answers s style gas := by
  intro gas
  induction gas with
  | zero =>
    intro around v hnodup hinside hgas hplain
    refine settles_value hstyle hallowed (fun id hid => hplain id (hid ▸ .here)) fun id hid _ hmem => ?_
    have := (cons_of_notMem hnodup hinside hmem (hplain id (hid ▸ .here)).inHeap).2.2
    omega
  | succ gas ih =>
    intro around v hnodup hinside hgas hplain
    refine settles_value hstyle hallowed (fun id hid => hplain id (hid ▸ .here)) fun id hid hentered hmem v' hshown => ?_
    subst hid
    obtain ⟨hnodup', hinside', -⟩ := cons_of_notMem hnodup hinside hmem (hplain id .here).inHeap
    have hgas' : s.heap.size ≤ (id :: around).length + gas := by
      rw [List.length_cons]
      omega
    obtain ⟨n, hn⟩ := ih hnodup' hinside' hgas' fun i hi => hplain i (.inside hentered hshown hi)
    refine ⟨n, ?_⟩
    rintro write ⟨fuel, indent, hfuel, rfl⟩ name
    exact hn fuel indent _ name hfuel

/-! ## 5. `JSON.stringify` -/

/-- Throwing the fault puts its error on the heap. -/
theorem run_throw_circular (α : Type) (answers : Answers) (m : Machine) : ∃ id m',
    (throwTypeError circular : Eval α).run answers m = .error (.thrown (.object id)) m' ∧ m'.objectAt id = {
      prototype := some (Intrinsic.errorPrototype .typeError).id
      sort := .error
      properties := #[(.string "message", .hidden (.string circular))] } :=
  ⟨_, _, rfl, State.objectAt_pushed _ _⟩

/-- The object that holds the value is put on the heap first. -/
theorem run_stringify_eq (answers : Answers) (m : Machine) (v : Value) : ∃ m' : Machine, m.Kept m' ∧
    m'.limits = m.limits ∧ m'.steps = m.steps ∧
    (JsonMethod.run .stringify #[v]).run answers m = (do
      let text ← jsonProperty {} nestingLimit [] "" (.object ⟨m.heap.size⟩) "" v
      pure (Value.ofText? text)).run answers m' := by
  have hnew : newPlain.run answers m = .ok ⟨m.heap.size⟩ { m with heap := m.heap.push (.ofEntries []) } := rfl
  have hplace : (⟨m.heap.size⟩ : ObjectId).index < (m.heap.push (.ofEntries [])).size := by simp
  obtain ⟨m₁, hroot, hfills, -⟩ := fills_updated (m := { m with heap := m.heap.push (.ofEntries []) })
    (fun o => (o.insertValue "" v, ())) hplace
  have hgrows : m.Grows m₁ := hfills.grows_of_push
  refine ⟨m₁, hgrows.objects, ?_, ?_, ?_⟩
  · rw [hgrows.rest]
  · rw [hgrows.rest]
  · have hmodify : (modifyObject ⟨m.heap.size⟩ fun o => o.insertValue "" v).run answers
        { m with heap := m.heap.push (.ofEntries []) } = .ok () m₁ := hroot
    have htext : (jsonText v .undefined .undefined).run answers m =
        (jsonProperty {} nestingLimit [] "" (.object ⟨m.heap.size⟩) "" v).run answers m₁ := by
      have hstyle : (styleOf .undefined).run answers m = .ok {} m := rfl
      have hspace : (spaceOf .undefined).run answers m = .ok .undefined m := rfl
      rw [jsonText, run_bind_of_ok hstyle, run_bind_of_ok hspace, run_bind_of_ok hnew, run_bind_of_ok hmodify]
      rfl
    cases hwrite : (jsonProperty {} nestingLimit [] "" (.object ⟨m.heap.size⟩) "" v).run answers m₁ with
    | ok text m₂ =>
      rw [run_bind_of_ok hwrite]
      exact run_bind_of_ok (htext.trans hwrite)
    | error e m₂ =>
      rw [run_bind_of_error hwrite]
      exact run_bind_of_error (htext.trans hwrite)

/-- **Circles are found, and nothing else is taken for one.** With enough steps, a value below which all is plain is written
to an end, to whatever depth beyond the number of objects a value may be gone into: there is a fault exactly when some
object is reachable from itself below the value, and else a text or none. So `JSON.stringify` throws a type error for it,
or gives its text, or `undefined` for what has none. -/
theorem run_stringify (answers : Answers) (s : State) (v : Value) (hplain : ∀ id, s.Met v id → s.Plain id) :
    ∃ n, (∀ depth indent holder name, s.heap.size < depth →
      Settles answers s n (s.Circular v) (jsonProperty {} depth [] indent holder name v)) ∧
      (s.heap.size < nestingLimit → ∀ m : Machine, m.toState = s → m.Affords n →
        (s.Circular v → ∃ id m', (JsonMethod.run .stringify #[v]).run answers m = .error (.thrown (.object id)) m' ∧
          m'.objectAt id = {
            prototype := some (Intrinsic.errorPrototype .typeError).id
            sort := .error
            properties := #[(.string "message", .hidden (.string "Converting circular structure to JSON"))] }) ∧
        (¬ s.Circular v → ∃ text m', (JsonMethod.run .stringify #[v]).run answers m = .ok (.ofText? text) m')) := by
  have hbelow : SettlesBelow answers s {} s.heap.size := settlesBelow rfl rfl s.heap.size
  obtain ⟨n, hn⟩ := hbelow List.nodup_nil nofun (Nat.le_add_left _ _) hplain
  rw [closes_iff fun id hmet => (hplain id hmet).inHeap] at hn
  refine ⟨n, fun depth indent holder name hdepth => hn depth indent holder name hdepth, fun hsize => ?_⟩
  rintro m rfl hbudget
  obtain ⟨m₁, hm, hlimits, hsteps, hrun⟩ := run_stringify_eq answers m v
  have hbudget' : m₁.Affords n := ⟨by rw [hlimits, hsteps]; exact hbudget.steps, by rw [hlimits, hsteps]; exact hbudget.time⟩
  obtain ⟨i, -, hclose, hopen⟩ := hn nestingLimit "" (.object ⟨m.heap.size⟩) "" hsize m₁ hm hbudget'
  rw [hrun]
  refine ⟨fun h => ?_, fun h => ?_⟩
  · obtain ⟨id, m', hthrow, hobject⟩ := run_throw_circular (Option String) answers (m₁.advance i)
    exact ⟨id, m', run_bind_of_error ((hclose h).trans hthrow), hobject⟩
  · obtain ⟨text, htext⟩ := hopen h
    exact ⟨text, _, run_bind_of_ok htext⟩

/-- An array with nothing to inherit from and no `toJSON`. -/
theorem plain_of_array (hid : id.index < s.heap.size) (hparent : (s.objectAt id).prototype = none)
    (hsort : (s.objectAt id).sort = .array) (hes : (s.objectAt id).elements.isSome)
    (hjson : (s.objectAt id).own? (.string "toJSON") = none) : s.Plain id := by
  have hends : ∀ q, ¬ s.Inherits id q := by
    rintro q (h | ⟨h, -⟩) <;> cases hparent.symm.trans h
  exact
    { inHeap := hid
      chainInHeap := fun q hq => absurd hq (hends q)
      number := by rw [hsort]; nofun
      string := by rw [hsort]; nofun
      boolean := by rw [hsort]; nofun
      isArray := fun _ => by rw [Object.isArray, hsort, hes]; rfl
      data := fun _ hnone => by rw [hnone] at hes; cases hes
      unconverted := fun q hq p hown => by
        obtain rfl := hq.resolve_right (hends q)
        cases hjson.symm.trans hown }

/-- A heap of one array, which holds itself as an element. -/
def selfHolding : State :=
  { heap := #[{ prototype := none, sort := .array, elements := some #[.object ⟨0⟩] }] }

/-- The array is found to be circular. -/
theorem run_stringify_self : ∃ n, ∀ m : Machine, m.toState = selfHolding → m.Affords n → ∃ id m',
    (JsonMethod.run .stringify #[.object ⟨0⟩]).run (Eval.answers nestingLimit) m = .error (.thrown (.object id)) m' := by
  have hshown : ∀ v, selfHolding.Shown ⟨0⟩ v → v = .object ⟨0⟩ := by
    rintro v (⟨hes, hv⟩ | ⟨hplain, -, -, -⟩)
    · cases hes
      simpa using hv
    · cases hplain
  have hmet : ∀ v id, selfHolding.Met v id → v = .object ⟨0⟩ → id = ⟨0⟩ := by
    intro v id h
    induction h with
    | here => exact fun h => Value.object.inj h
    | inside _ hv _ ih =>
      intro h
      cases h
      exact ih (hshown _ hv)
  have hplain : ∀ id, selfHolding.Met (.object ⟨0⟩) id → selfHolding.Plain id := by
    intro id h
    obtain rfl := hmet _ id h rfl
    exact plain_of_array (by decide) rfl rfl rfl (by decide)
  have hcircular : selfHolding.Circular (.object ⟨0⟩) :=
    ⟨⟨0⟩, .object ⟨0⟩, .here, rfl, .element rfl (by simp), .here⟩
  obtain ⟨n, hn⟩ := run_stringify (Eval.answers nestingLimit) selfHolding (.object ⟨0⟩) hplain
  refine ⟨n, fun m hm hbudget => ?_⟩
  obtain ⟨id, m', hthrow, -⟩ := (hn.2 (by decide) m hm hbudget).1 hcircular
  exact ⟨id, m', hthrow⟩

/-- A heap of one array without elements, which holds itself under a name. -/
def nameHolding : State :=
  { heap := #[{
      prototype := none, sort := .array, elements := some #[]
      properties := #[(.string "self", .ordinary (.object ⟨0⟩))] }] }

/-- The array is its own value under an enumerable name, and has a text: the names of an array are not gone through. -/
theorem run_stringify_named : nameHolding.Plain ⟨0⟩ ∧
    (nameHolding.objectAt ⟨0⟩).own? (.string "self") = some (.ordinary (.object ⟨0⟩)) ∧
    ∃ m', (JsonMethod.run .stringify #[.object ⟨0⟩]).run (Eval.answers nestingLimit) { toState := nameHolding } =
      .ok (.string "[]") m' := by
  have hplain : nameHolding.Plain ⟨0⟩ := plain_of_array (by decide) rfl rfl rfl (by decide)
  obtain ⟨m, hm, hlimits, hsteps, hrun⟩ :=
    run_stringify_eq (Eval.answers nestingLimit) { toState := nameHolding } (.object ⟨0⟩)
  have hbudget : m.Affords 1 := ⟨by rw [hlimits, hsteps]; decide, by rw [hlimits, hsteps]; decide⟩
  have hwrite : (jsonProperty {} (nestingLimit - 1 + 1) [] "" (.object ⟨1⟩) "" (.object ⟨0⟩)).run
      (Eval.answers nestingLimit) m = .ok (some "[]") (m.advance 1) :=
    run_jsonProperty_empty rfl hm hplain rfl rfl List.not_mem_nil hbudget
  exact ⟨hplain, rfl, m.advance 1, hrun.trans ((run_bind_of_ok hwrite).trans rfl)⟩

end Eval

end GuestScript
