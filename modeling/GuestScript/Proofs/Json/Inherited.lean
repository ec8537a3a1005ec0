import GuestScript.Proofs.Json.Writing
import GuestScript.Proofs.Mirror.State

/-!
# What documents inherit on the first machine

The two objects that documents inherit from convert nothing when they are made, and no built-in function that is put
on them later is a `toJSON`. So they convert nothing on the first machine. That is shown along the actions that build
it, as `Eval.Builds` is: from a state in which both objects are there (`State.Settled`), an action goes on to one in
which they still convert nothing (`Eval.Spares`).
-/

namespace GuestScript

/-! ## 1. Changes that spare what is inherited -/

namespace Object

variable {o : Object} {name : String}

/-- Putting a property into an object changes no property with another name. -/
theorem own?_insert_of_ne (hindex : Text.index? name = none) {name' : String} (hne : name' ≠ name) (p : Property) :
    (o.insert name p).own? (.string name') = o.own? (.string name') := by
  have hstore : o.insert name p = o.store (.string name) p := by
    simp [insert, hindex]
  have hvirtual : (o.store (.string name) p).virtual? name' = o.virtual? name' := by
    unfold store
    split <;> rfl
  simp only [own?, hstore, hvirtual, stored?_store_of_ne hne]

/-- Whether a change of an object keeps its prototype and adds no `toJSON`. -/
def Spares (f : Object → Object) : Prop :=
  ∀ o, (f o).prototype = o.prototype ∧ (f o).own? (.string "toJSON") = o.own? (.string "toJSON")

theorem spares_insert (hindex : Text.index? name = none) (hne : "toJSON" ≠ name) (p : Property) :
    Spares fun o => o.insert name p :=
  fun o => ⟨prototype_insert o name p, own?_insert_of_ne hindex hne p⟩

end Object

namespace State

/-- Whether the objects that documents inherit from are there and convert nothing. -/
structure Settled (s : State) : Prop where
  converts : s.ConvertsNothing
  size : Intrinsic.arrayPrototype.id.index < s.heap.size

variable {s s' : State}

/-- Nothing else of a state matters than the first objects. -/
theorem Settled.congr (h : s.Settled) (hsize : s.heap.size ≤ s'.heap.size)
    (hat : ∀ id : ObjectId, id.index ≤ Intrinsic.arrayPrototype.id.index →
      (s'.objectAt id).prototype = (s.objectAt id).prototype ∧
        (s'.objectAt id).own? (.string "toJSON") = (s.objectAt id).own? (.string "toJSON")) : s'.Settled :=
  have hobject := hat Intrinsic.objectPrototype.id (Nat.zero_le _)
  have harray := hat Intrinsic.arrayPrototype.id (Nat.le_refl _)
  { converts :=
      { object := hobject.2.trans h.converts.object
        objectEnds := hobject.1.trans h.converts.objectEnds
        array := harray.2.trans h.converts.array
        arrayNext := harray.1.trans h.converts.arrayNext }
    size := Nat.lt_of_lt_of_le h.size hsize }

/-- A new object leaves the others as they are. -/
theorem Settled.allocate (h : s.Settled) (o : Object) : ({ s with heap := s.heap.push o } : State).Settled := by
  refine h.congr (by simp) fun id hid => ?_
  have hlt : id.index < s.heap.size := Nat.lt_of_le_of_lt hid h.size
  have hkept : ({ s with heap := s.heap.push o } : State).objectAt id = s.objectAt id := by
    simp [objectAt, Array.getD_eq_getD_getElem?, Array.getElem?_push, Nat.ne_of_lt hlt]
  rw [hkept]
  exact ⟨rfl, rfl⟩

/-- So does a change of another object, and one that keeps a prototype and adds no `toJSON` does no harm. -/
theorem Settled.changeObject (h : s.Settled) {id : ObjectId} {f : Object → Object}
    (hf : Intrinsic.arrayPrototype.id.index < id.index ∨ Object.Spares f) :
    (s.changeObject id fun o => (f o, ())).2.Settled := by
  refine h.congr (by simp [State.changeObject]) fun other hother => ?_
  have hlt : other.index < s.heap.size := Nat.lt_of_le_of_lt hother h.size
  by_cases heq : id.index = other.index
  · have hspares : Object.Spares f := hf.resolve_left (by omega)
    have hnew : (s.changeObject id fun o => (f o, ())).2.objectAt other = f (s.objectAt other) := by
      simp [State.changeObject, objectAt, heq, Array.getD_eq_getD_getElem?, hlt]
    rw [hnew]
    exact hspares _
  · have hold : (s.changeObject id fun o => (f o, ())).2.objectAt other = s.objectAt other := by
      simp [State.changeObject, objectAt, Array.getD_eq_getD_getElem?, heq]
    rw [hold]
    exact ⟨rfl, rfl⟩

end State

/-! ## 2. Actions that spare what is inherited -/

namespace Eval

/-- Whether an action that starts on a settled machine gives a result with a property and leaves a settled machine
behind. -/
def Spares {α : Type} (x : Eval α) (Q : α → Prop) : Prop :=
  ∀ answers (m : Machine), m.Settled → ∃ a m', x.run answers m = .ok a m' ∧ m'.Settled ∧ Q a

section

variable {α β : Type} {Q : α → Prop} {R : β → Prop}

theorem spares_pure {a : α} (h : Q a) : (pure a : Eval α).Spares Q :=
  fun _ m hm => ⟨a, m, rfl, hm, h⟩

theorem Spares.bind {x : Eval α} {f : α → Eval β} (hx : x.Spares Q) (hf : ∀ a, Q a → (f a).Spares R) :
    (x >>= f).Spares R := by
  intro answers m hm
  obtain ⟨a, m₁, hrun, hm₁, ha⟩ := hx answers m hm
  obtain ⟨b, m₂, hrun₂, hm₂, hb⟩ := hf a ha answers m₁ hm₁
  refine ⟨b, m₂, ?_, hm₂, hb⟩
  change (andThen x f).run answers m = _
  simp only [run, hrun, hrun₂]

theorem Spares.mono {Q' : α → Prop} {x : Eval α} (hx : x.Spares Q) (h : ∀ a, Q a → Q' a) : x.Spares Q' := by
  intro answers m hm
  obtain ⟨a, m', hrun, hm', ha⟩ := hx answers m hm
  exact ⟨a, m', hrun, hm', h a ha⟩

/-- The result may be dropped. -/
abbrev Passes (x : Eval α) : Prop :=
  x.Spares fun _ => True

theorem passes_discard {x : Eval α} (hx : x.Passes) : (discard x).Passes :=
  hx.bind fun _ _ => spares_pure trivial

theorem passes_forM {f : α → Eval PUnit} : ∀ {l : List α}, (∀ a ∈ l, (f a).Passes) → (l.forM f).Passes
  | [], _ => spares_pure trivial
  | a :: l, h => (h a (by simp)).bind fun _ _ => passes_forM fun b hb => h b (by simp [hb])

end

theorem passes_defineGlobal (name : String) (v : Value) : (defineGlobal name v).Passes :=
  fun _ _ hm => ⟨_, _, rfl, hm.congr (Nat.le_refl _) fun _ _ => ⟨rfl, rfl⟩, trivial⟩

/-- A new object is none of those that documents inherit from. -/
theorem spares_allocate (o : Object) : (allocate o).Spares fun id => Intrinsic.arrayPrototype.id.index < id.index :=
  fun _ _ hm => ⟨_, _, rfl, hm.allocate o, hm.size⟩

theorem passes_modifyObject {id : ObjectId} {f : Object → Object}
    (hf : Intrinsic.arrayPrototype.id.index < id.index ∨ Object.Spares f) : (modifyObject id f).Passes :=
  fun _ _ hm => ⟨_, _, rfl, hm.changeObject hf, trivial⟩

theorem spares_newFunction (b : Builtin) :
    (newFunction (.builtin b)).Spares fun id => Intrinsic.arrayPrototype.id.index < id.index :=
  (spares_allocate _).bind fun _ hid => spares_pure hid

/-! ## 3. The families -/

/-- Whether a name may be put on every object. -/
abbrev PlainName (name : String) : Prop :=
  Text.index? name = none ∧ "toJSON" ≠ name

theorem passes_insert {target : ObjectId} {name : String}
    (h : Intrinsic.arrayPrototype.id.index < target.index ∨ PlainName name) (p : Property) :
    (modifyObject target fun o => o.insert name p).Passes :=
  passes_modifyObject (h.imp_right fun hname => Object.spares_insert hname.1 hname.2 p)

theorem passes_installMethods {target : ObjectId} {methods : List Builtin}
    (h : Intrinsic.arrayPrototype.id.index < target.index ∨ ∀ b ∈ methods, PlainName b.name) :
    (installMethods target methods).Passes :=
  passes_forM fun b hb => (spares_newFunction b).bind fun _ _ => passes_insert (h.imp_right fun h => h b hb) _

theorem passes_installGetter {target : ObjectId} (h : Intrinsic.arrayPrototype.id.index < target.index)
    (name : String) (b : Builtin) : (installGetter target name b).Passes :=
  (spares_newFunction b).bind fun _ _ => passes_insert (.inl h) _

theorem passes_installConstant {target : ObjectId} (h : Intrinsic.arrayPrototype.id.index < target.index)
    (name : String) (v : Value) : (installConstant target name v).Passes :=
  passes_insert (.inl h) _

theorem passes_installTag {target : ObjectId} (h : Intrinsic.arrayPrototype.id.index < target.index)
    (tag : String) : (installTag target tag).Passes :=
  passes_modifyObject (.inl h)

theorem spares_installConstructor (b : Builtin) (prototype : ObjectId)
    (parent : ObjectId := Intrinsic.functionPrototype.id) :
    (installConstructor b prototype parent).Spares fun id => Intrinsic.arrayPrototype.id.index < id.index := by
  refine (spares_allocate _).bind fun id hid => (passes_installConstant hid _ _).bind fun _ _ => ?_
  refine (passes_insert (.inr (by decide)) _).bind fun _ _ => ?_
  exact (passes_defineGlobal _ _).bind fun _ _ => spares_pure hid

theorem spares_installNamespace (name : String) (methods : List Builtin) :
    (installNamespace name methods).Spares fun id => Intrinsic.arrayPrototype.id.index < id.index :=
  (spares_allocate _).bind fun _ hid => (passes_installMethods (.inl hid)).bind fun _ _ =>
    (passes_defineGlobal _ _).bind fun _ _ => spares_pure hid

/-- A constructor, functions on it and functions on its prototype, as most families are put together. -/
theorem passes_family (make : Builtin) {prototype : ObjectId} (own : List Builtin) {shared : List Builtin}
    (h : Intrinsic.arrayPrototype.id.index < prototype.index ∨ ∀ b ∈ shared, PlainName b.name) :
    (do
      let constructor ← installConstructor make prototype
      installMethods constructor own
      installMethods prototype shared : Eval Unit).Passes :=
  (spares_installConstructor make prototype).bind fun _ hid => (passes_installMethods (.inl hid)).bind fun _ _ =>
    passes_installMethods h

theorem passes_installObject : installObject.Passes :=
  passes_family _ _ (.inr (by decide))

theorem passes_installFunctionPrototype : installFunctionPrototype.Passes :=
  (passes_installMethods (.inr (by decide))).bind fun _ _ => passes_insert (.inr (by decide)) _

theorem passes_installArray : installArray.Passes :=
  passes_family _ _ (.inr (by decide))

theorem passes_installString : installString.Passes :=
  passes_family _ _ (.inl (by decide))

theorem spares_installNumber : installNumber.Spares fun id => Intrinsic.arrayPrototype.id.index < id.index := by
  refine (spares_installConstructor _ _).bind fun id hid => ?_
  refine (passes_forM fun entry _ => passes_installConstant hid _ _).bind fun _ _ => ?_
  refine (passes_installMethods (.inl hid)).bind fun _ _ => ?_
  exact (passes_installMethods (.inl (by decide))).bind fun _ _ => spares_pure hid

theorem passes_installBoolean : installBoolean.Passes :=
  (passes_discard ((spares_installConstructor _ _).mono fun _ _ => trivial)).bind fun _ _ =>
    passes_installMethods (.inl (by decide))

theorem passes_installSymbol : installSymbol.Passes := by
  refine (spares_installConstructor _ _).bind fun id hid => ?_
  refine (passes_forM fun s _ => passes_installConstant hid _ _).bind fun _ _ => ?_
  refine (passes_installMethods (.inl hid)).bind fun _ _ => ?_
  refine (passes_installMethods (.inl (by decide))).bind fun _ _ => ?_
  exact (passes_installGetter (by decide) _ _).bind fun _ _ => passes_installTag (by decide) _

theorem spares_installError (kind : ErrorKind) (parent : ObjectId) :
    (installError kind parent).Spares fun id => Intrinsic.arrayPrototype.id.index < id.index := by
  have hfirst : Object.Spares fun o => o.insertHidden "name" (.string kind.name) :=
    Object.spares_insert (by decide) (by decide) _
  have hsecond : Object.Spares fun o => o.insertHidden "message" (.string "") :=
    Object.spares_insert (by decide) (by decide) _
  have hname : Object.Spares fun o => (o.insertHidden "name" (.string kind.name)).insertHidden "message" (.string "") :=
    fun o => ⟨(hsecond _).1.trans (hfirst o).1, (hsecond _).2.trans (hfirst o).2⟩
  exact (passes_modifyObject (.inr hname)).bind fun _ _ => spares_installConstructor _ _ _

theorem passes_installErrors : installErrors.Passes := by
  refine (spares_installError _ _).bind fun base _ => (passes_installMethods (.inr (by decide))).bind fun _ _ => ?_
  exact passes_forM fun kind _ => passes_discard ((spares_installError kind base).mono fun _ _ => trivial)

theorem passes_installMath : installMath.Passes := by
  refine (spares_installNamespace _ _).bind fun id hid => ?_
  refine (passes_forM fun entry _ => passes_installConstant hid _ _).bind fun _ _ => ?_
  exact (passes_modifyObject (.inl hid)).bind fun _ _ => passes_installTag hid _

theorem passes_installJson : installJson.Passes :=
  (spares_installNamespace _ _).bind fun _ hid => passes_installTag hid _

/-- Dates have a `toJSON`, and no document inherits from them. -/
theorem passes_installDate : installDate.Passes :=
  passes_family _ _ (.inl (by decide))

theorem passes_installRegex : installRegex.Passes := by
  refine (passes_discard ((spares_installConstructor _ _).mono fun _ _ => trivial)).bind fun _ _ => ?_
  refine (passes_installMethods (.inl (by decide))).bind fun _ _ => ?_
  exact passes_forM fun entry _ => passes_installGetter (by decide) _ _

theorem passes_installCollection (kind : CollectionKind) : (installCollection kind).Passes := by
  have hprototype : Intrinsic.arrayPrototype.id.index < (Intrinsic.collectionPrototype kind).id.index := by
    cases kind <;> decide
  refine (passes_discard ((spares_installConstructor _ _).mono fun _ _ => trivial)).bind fun _ _ => ?_
  refine (passes_installMethods (.inl hprototype)).bind fun _ _ => ?_
  cases kind with
  | map | set => exact (passes_installGetter hprototype _ _).bind fun _ _ => passes_installTag hprototype _
  | weakMap | weakSet => exact passes_installTag hprototype _

theorem passes_installGlobals {number : ObjectId} (h : Intrinsic.arrayPrototype.id.index < number.index) :
    (installGlobals number).Passes := by
  refine passes_forM fun method _ => (spares_newFunction _).bind fun id _ => ?_
  dsimp only
  split
  · exact (passes_insert (.inl h) _).bind fun _ _ => passes_defineGlobal _ _
  · exact passes_defineGlobal _ _

theorem passes_installTextFunctions : installTextFunctions.Passes := by
  refine (passes_insert (.inl (by decide)) _).bind fun _ _ => (passes_defineGlobal _ _).bind fun _ _ => ?_
  refine (passes_insert (.inl (by decide)) _).bind fun _ _ => ?_
  exact (passes_installConstant (by decide) _ _).bind fun _ _ => passes_defineGlobal _ _

/-! ## 4. The first machine -/

/-- Objects are put on the heap one after the other. -/
theorem run_forM_allocate (answers : Answers) : ∀ (l : List Intrinsic) (m : Machine),
    (l.forM fun i => discard <| allocate i.object).run answers m =
      .ok () { m with heap := m.heap ++ (l.map Intrinsic.object).toArray }
  | [], m => by
    change EStateM.Result.ok () m = _
    simp
  | i :: l, m => by
    have hnext := run_forM_allocate answers l { m with heap := m.heap.push i.object }
    change (l.forM fun i => discard <| allocate i.object).run answers { m with heap := m.heap.push i.object } = _
    rw [hnext]
    simp

/-- The intrinsic objects convert nothing before anything is put on them. -/
theorem settled_intrinsics : ({ heap := (Intrinsic.all.map Intrinsic.object).toArray } : State).Settled where
  converts := ⟨rfl, rfl, rfl, rfl⟩
  size := by decide

/-- **The built-in objects convert nothing** when they are built. -/
theorem settled_installAll (answers : Answers) : (finalMachine (installAll.run answers {})).Settled := by
  have hrest : (do
      defineGlobal "undefined" .undefined
      defineGlobal "NaN" (.number Number.nan)
      defineGlobal "Infinity" (.number Number.infinity)
      installObject
      installFunctionPrototype
      installArray
      installString
      let number ← installNumber
      installBoolean
      installSymbol
      installErrors
      installMath
      installJson
      installDate
      installRegex
      [CollectionKind.map, .set, .weakMap, .weakSet].forM installCollection
      installGlobals number
      installTextFunctions : Eval Unit).Passes := by
    refine (passes_defineGlobal _ _).bind fun _ _ => (passes_defineGlobal _ _).bind fun _ _ => ?_
    refine (passes_defineGlobal _ _).bind fun _ _ => passes_installObject.bind fun _ _ => ?_
    refine passes_installFunctionPrototype.bind fun _ _ => passes_installArray.bind fun _ _ => ?_
    refine passes_installString.bind fun _ _ => spares_installNumber.bind fun number hnumber => ?_
    refine passes_installBoolean.bind fun _ _ => passes_installSymbol.bind fun _ _ => ?_
    refine passes_installErrors.bind fun _ _ => passes_installMath.bind fun _ _ => ?_
    refine passes_installJson.bind fun _ _ => passes_installDate.bind fun _ _ => ?_
    refine passes_installRegex.bind fun _ _ => ?_
    refine (passes_forM fun kind _ => passes_installCollection kind).bind fun _ _ => ?_
    exact (passes_installGlobals hnumber).bind fun _ _ => passes_installTextFunctions
  have hrun := run_forM_allocate answers Intrinsic.all {}
  obtain ⟨u, m', hrun', hm', -⟩ := hrest answers { heap := (Intrinsic.all.map Intrinsic.object).toArray }
    settled_intrinsics
  have hall : installAll.run answers {} = .ok u m' := by
    rw [← hrun']
    change (andThen _ _).run answers _ = _
    simp only [run, hrun, Array.empty_append]
  rw [hall]
  exact hm'

end Eval

end GuestScript
