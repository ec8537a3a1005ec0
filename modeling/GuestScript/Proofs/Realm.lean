import GuestScript.Proofs.Log

/-!
# The objects of the first machine

The objects that every machine starts with are *reserved*: none of them is a date or a collection, and none has a
property that can be enumerated. Built-in functions that write without asking, to dates, to collections and to the
objects that a reviver is called for, never meet one of them for that reason.

That the first machine holds reserved objects only is shown along the actions that build it: an action builds reserved
objects if it allocates such objects and keeps all others so (`Eval.Builds`).
-/

namespace GuestScript

variable {p : Property} {name : String}

/-! ## 1. Reserved objects -/

namespace Object

/-- Neither a date nor a collection, and with nothing to enumerate. -/
structure Reserved (o : Object) : Prop where
  notDate : o.sort ≠ .date
  notCollection : ∀ kind, o.sort ≠ .collection kind
  noElements : ∀ es, o.elements = some es → es = #[]
  noText : ∀ s, o.primitive = some (.string s) → s = ""
  hidden : ∀ entry ∈ o.properties, entry.2.enumerable = false

namespace Reserved

variable {o : Object}

theorem empty : Reserved {} :=
  ⟨nofun, nofun, nofun, nofun, by simp⟩

/-- A property that is not enumerable may be stored. -/
theorem store (h : o.Reserved) (key : Key) (hp : p.enumerable = false) : (o.store key p).Reserved := by
  unfold Object.store
  split
  · refine { h with hidden := ?_ }
    intro entry he
    rcases Array.mem_or_eq_of_mem_setIfInBounds he with he | rfl
    · exact h.hidden entry he
    · exact hp
  · refine { h with hidden := ?_ }
    intro entry he
    rcases Array.mem_push.mp he with he | rfl
    · exact h.hidden entry he
    · exact hp

/-- So may one with a name that is no index. -/
theorem insert (h : o.Reserved) (hname : Text.index? name = none) (hp : p.enumerable = false) :
    (o.insert name p).Reserved := by
  have hstore : o.insert name p = o.store (.string name) p := by
    simp [Object.insert, hname]
  rw [hstore]
  exact h.store _ hp

theorem insertHidden (h : o.Reserved) (hname : Text.index? name = none) (v : Value) :
    (o.insertHidden name v).Reserved :=
  h.insert hname rfl

/-- The text of a reserved object is empty. -/
theorem text_eq_empty (h : o.Reserved) {s : String} (hs : o.text? = some s) : s = "" := by
  unfold text? at hs
  split at hs
  · rename_i t ht
    split at hs
    · cases hs
      exact h.noText s ht
    · cases hs
  · cases hs

/-- An array without elements has only a length. -/
theorem arrayProperty_hidden {frozen : Bool} (hp : arrayProperty? #[] frozen name = some p) : p.enumerable = false := by
  unfold arrayProperty? at hp
  split at hp
  · cases hp
    rfl
  · split at hp <;> simp at hp

/-- An empty text has only a length. -/
theorem textProperty_hidden (hp : textProperty? "" name = some p) : p.enumerable = false := by
  have hsize : Text.size "" = 0 := by decide
  unfold textProperty? at hp
  split at hp
  · cases hp
    rfl
  · split at hp <;> simp [hsize] at hp

/-- The only virtual property is a length. -/
theorem virtual_hidden (h : o.Reserved) (hp : o.virtual? name = some p) : p.enumerable = false := by
  unfold virtual? at hp
  dsimp only at hp
  split at hp
  · rename_i q hq
    cases hp
    split at hq
    · rename_i es hes
      cases h.noElements es hes
      exact arrayProperty_hidden hq
    · cases hq
  · split at hp
    · rename_i s hs
      cases h.text_eq_empty hs
      exact textProperty_hidden hp
    · cases hp

/-- Nothing can be enumerated. -/
theorem enumerableNames_eq_nil (h : o.Reserved) : o.enumerableNames = [] := by
  have hnone : ∀ name, o.isEnumerable (.string name) = false := by
    intro name
    unfold isEnumerable
    split
    · rename_i p hp
      simp only [own?] at hp
      split at hp
      · rename_i q hq
        cases hp
        exact h.virtual_hidden hq
      · obtain ⟨entry, hentry, rfl⟩ := Option.map_eq_some_iff.mp hp
        exact h.hidden entry (Array.mem_of_find?_eq_some hentry)
    · rfl
  unfold enumerableNames
  simp [hnone]

end Reserved

end Object

/-- An object of a function is reserved. -/
theorem functionObject_reserved (c : Callable) (prototype : ObjectId) :
    (Eval.functionObject c prototype).Reserved :=
  ⟨nofun, nofun, nofun, nofun, by simp [Eval.functionObject, Property.data]⟩

/-- The intrinsic objects are reserved. -/
theorem Intrinsic.object_reserved (i : Intrinsic) : i.object.Reserved := by
  cases i with
  | errorPrototype kind => cases kind <;> exact ⟨nofun, nofun, nofun, nofun, by simp [object]⟩
  | arrayPrototype => exact ⟨nofun, nofun, by rintro _ ⟨⟩; rfl, nofun, by simp [object]⟩
  | stringPrototype => exact ⟨nofun, nofun, nofun, by rintro _ ⟨⟩; rfl, by simp [object]⟩
  | evalText | makeFunction =>
    exact ⟨nofun, nofun, nofun, nofun, by simp [object, textFunction, Property.data]⟩
  | _ => exact ⟨nofun, nofun, nofun, nofun, by simp [object]⟩

/-! ## 2. Building reserved objects -/

/-- Whether an update allocates only reserved objects and keeps all others so, and opens no scope. -/
def Update.Builds : {α : Type} → Update α → Prop
  | _, .allocate o => o.Reserved
  | _, .object _ f => ∀ o, o.Reserved → (f o).1.Reserved
  | _, .link _ _ | _, .names _ _ | _, .newScope _ | _, .newFrame _ _ _ _ => False
  | _, _ => True

/-- Whether an action builds reserved objects, step by step. -/
def Eval.Builds {α : Type} : Eval α → Prop
  | .done _ => True
  | .andThen x f => x.Builds ∧ ∀ a, (f a).Builds
  | .update u => u.Builds
  | _ => False

/-- An update that builds reserved objects leaves a heap of reserved objects behind. -/
theorem Update.reserved_apply {α : Type} {u : Update α} (hu : u.Builds) {s : State}
    (hs : ∀ o ∈ s.heap, o.Reserved) :
    ∀ o ∈ (u.apply s).2.heap, o.Reserved := by
  cases u with
  | allocate o =>
    intro o' ho'
    rcases Array.mem_push.mp ho' with ho' | rfl
    · exact hs o' ho'
    · exact hu
  | object id f =>
    intro o' ho'
    have hold : (s.heap.getD id.index default).Reserved := by
      rw [Array.getD_eq_getD_getElem?]
      cases hget : s.heap[id.index]? with
      | none => exact .empty
      | some o => exact hs o (Array.mem_of_getElem? hget)
    rcases Array.mem_or_eq_of_mem_setIfInBounds ho' with ho' | rfl
    · rcases Array.mem_or_eq_of_mem_setIfInBounds ho' with ho' | rfl
      · exact hs o' ho'
      · exact .empty
    · exact hu _ hold
  | link | names | newScope | newFrame => exact hu.elim
  | result v =>
    simp only [apply]
    split <;> exact hs
  | unlock | newSymbol | global | position => exact hs

namespace Eval

/-- An action that builds reserved objects leaves a heap of reserved objects behind. -/
theorem reserved_run (answers : Answers) {α : Type} {x : Eval α} (hx : x.Builds) {m : Machine}
    (hm : ∀ o ∈ m.heap, o.Reserved) : ∀ o ∈ (finalMachine (x.run answers m)).heap, o.Reserved := by
  induction x generalizing m with
  | done a => exact hm
  | andThen x f ihx ihf =>
    have hx' := ihx hx.1 hm
    simp only [run]
    cases hr : x.run answers m with
    | ok a m' =>
      rw [hr] at hx'
      exact ihf a (hx.2 a) hx'
    | error e m' =>
      rw [hr] at hx'
      exact hx'
  | update u => exact Update.reserved_apply hx hm
  | _ => exact hx.elim

theorem reserved_runOn {α : Type} {x : Eval α} (hx : x.Builds) {m : Machine} (hm : ∀ o ∈ m.heap, o.Reserved) :
    ∀ o ∈ (finalMachine (x.runOn m)).heap, o.Reserved :=
  reserved_run (answers nestingLimit) hx hm

/-! ## 3. The families -/

section

variable {α β : Type}

theorem builds_pure (a : α) : (pure a : Eval α).Builds := trivial

theorem Builds.bind {x : Eval α} {f : α → Eval β} (hx : x.Builds) (hf : ∀ a, (f a).Builds) : (x >>= f).Builds :=
  ⟨hx, hf⟩

theorem builds_discard (x : Eval α) : (discard x).Builds ↔ x.Builds :=
  ⟨And.left, fun h => ⟨h, fun _ => trivial⟩⟩

theorem builds_forM {f : α → Eval PUnit} : ∀ {l : List α}, (∀ a ∈ l, (f a).Builds) → (l.forM f).Builds
  | [], _ => trivial
  | a :: l, h => ⟨h a (by simp), fun _ => builds_forM fun b hb => h b (by simp [hb])⟩

theorem builds_defineGlobal (name : String) (v : Value) : (defineGlobal name v).Builds := trivial

end

theorem builds_newFunction (b : Builtin) : (newFunction (.builtin b)).Builds :=
  ⟨functionObject_reserved _ _, fun _ => trivial⟩

theorem builds_newPlain : newPlain.Builds :=
  ⟨nofun, nofun, nofun, nofun, by simp⟩

theorem builds_installMethods (target : ObjectId) {methods : List Builtin}
    (hnames : ∀ b ∈ methods, Text.index? b.name = none) : (installMethods target methods).Builds :=
  builds_forM fun b hb => .bind (builds_newFunction b) fun _ _ h => h.insertHidden (hnames b hb) _

theorem builds_installGetter (target : ObjectId) (hname : Text.index? name = none) (b : Builtin) :
    (installGetter target name b).Builds :=
  .bind (builds_newFunction b) fun _ _ h => h.insert hname rfl

theorem builds_installConstant (target : ObjectId) (hname : Text.index? name = none) (v : Value) :
    (installConstant target name v).Builds :=
  fun _ h => h.insert hname rfl

theorem builds_installTag (target : ObjectId) (tag : String) : (installTag target tag).Builds :=
  fun _ h => h.store _ rfl

theorem builds_installConstructor (b : Builtin) (prototype : ObjectId)
    (parent : ObjectId := Intrinsic.functionPrototype.id) : (installConstructor b prototype parent).Builds := by
  refine .bind (functionObject_reserved _ _) fun id => .bind (builds_installConstant id (by decide) _) fun _ => ?_
  refine .bind (fun _ h => h.insertHidden (by decide) _) fun _ => ?_
  exact .bind (builds_defineGlobal _ _) fun _ => builds_pure id

theorem builds_installNamespace (name : String) {methods : List Builtin}
    (hnames : ∀ b ∈ methods, Text.index? b.name = none) : (installNamespace name methods).Builds :=
  .bind builds_newPlain fun id => .bind (builds_installMethods id hnames) fun _ =>
    .bind (builds_defineGlobal _ _) fun _ => builds_pure id

/-- A constructor, functions on it and functions on its prototype, as most families are put together. -/
theorem builds_family (make : Builtin) (prototype : ObjectId) {own shared : List Builtin}
    (hown : ∀ b ∈ own, Text.index? b.name = none) (hshared : ∀ b ∈ shared, Text.index? b.name = none) :
    (do
      let constructor ← installConstructor make prototype
      installMethods constructor own
      installMethods prototype shared : Eval Unit).Builds :=
  .bind (builds_installConstructor make prototype) fun id => .bind (builds_installMethods id hown) fun _ =>
    builds_installMethods prototype hshared

theorem builds_installObject : installObject.Builds :=
  builds_family _ _ (by decide) (by decide)

theorem builds_installFunctionPrototype : installFunctionPrototype.Builds :=
  .bind (builds_installMethods _ (by decide)) fun _ _ h => h.insertHidden (by decide) _

theorem builds_installArray : installArray.Builds :=
  builds_family _ _ (by decide) (by decide)

theorem builds_installString : installString.Builds :=
  builds_family _ _ (by decide) (by decide)

theorem builds_installNumber : installNumber.Builds := by
  have hconstants : ∀ entry ∈ numberConstants, Text.index? entry.1 = none := by decide
  refine .bind (builds_installConstructor _ _) fun id => .bind ?_ fun _ => ?_
  · exact builds_forM fun entry he => builds_installConstant id (hconstants entry he) _
  refine .bind (builds_installMethods _ (by decide)) fun _ => ?_
  exact .bind (builds_installMethods _ (by decide)) fun _ => builds_pure id

theorem builds_installBoolean : installBoolean.Builds :=
  .bind ((builds_discard _).mpr (builds_installConstructor _ _)) fun _ => builds_installMethods _ (by decide)

theorem builds_installSymbol : installSymbol.Builds := by
  have hsymbols : ∀ s ∈ WellKnownSymbol.all, Text.index? s.name = none := by decide
  refine .bind (builds_installConstructor _ _) fun id => .bind ?_ fun _ => ?_
  · exact builds_forM fun s hs => builds_installConstant id (hsymbols s hs) _
  refine .bind (builds_installMethods _ (by decide)) fun _ => ?_
  refine .bind (builds_installMethods _ (by decide)) fun _ => ?_
  exact .bind (builds_installGetter _ (by decide) _) fun _ => builds_installTag _ _

theorem builds_installError (kind : ErrorKind) (parent : ObjectId) : (installError kind parent).Builds := by
  refine .bind (fun _ h => ?_) fun _ => builds_installConstructor _ _ _
  exact (h.insertHidden (by decide) _).insertHidden (by decide) _

theorem builds_installErrors : installErrors.Builds := by
  refine .bind (builds_installError _ _) fun base => .bind (builds_installMethods _ (by decide)) fun _ => ?_
  exact builds_forM fun kind _ => (builds_discard _).mpr (builds_installError kind base)

theorem builds_installMath : installMath.Builds := by
  have hconstants : ∀ entry ∈ mathConstants, Text.index? entry.1 = none := by decide
  refine .bind (builds_installNamespace _ (by decide)) fun id => .bind ?_ fun _ => ?_
  · exact builds_forM fun entry he => builds_installConstant id (hconstants entry he) _
  refine .bind (fun _ h => ?_) fun _ => builds_installTag _ _
  exact { h with notDate := nofun, notCollection := nofun }

theorem builds_installJson : installJson.Builds :=
  .bind (builds_installNamespace _ (by decide)) fun _ => builds_installTag _ _

theorem builds_installDate : installDate.Builds :=
  builds_family _ _ (by decide) (by decide)

theorem builds_installRegex : installRegex.Builds := by
  have hgetters : ∀ entry ∈ regexGetters, Text.index? entry.1 = none := by decide
  refine .bind ((builds_discard _).mpr (builds_installConstructor _ _)) fun _ => ?_
  refine .bind (builds_installMethods _ (by decide)) fun _ => ?_
  exact builds_forM fun entry he => builds_installGetter _ (hgetters entry he) _

theorem builds_installCollection (kind : CollectionKind) : (installCollection kind).Builds := by
  have hsize : Text.index? "size" = none := by decide
  refine .bind ((builds_discard _).mpr (builds_installConstructor _ _)) fun _ => ?_
  refine .bind (builds_installMethods _ ?_) fun _ => ?_
  · cases kind <;> decide
  · cases kind with
    | map | set => exact .bind (builds_installGetter _ hsize _) fun _ => builds_installTag _ _
    | weakMap | weakSet => exact builds_installTag _ _

theorem builds_installGlobals (number : ObjectId) : (installGlobals number).Builds := by
  refine builds_forM fun method _ => .bind (builds_newFunction _) fun id => ?_
  have hname : Text.index? (Builtin.global method).name = none := by cases method <;> rfl
  have hinsert : (modifyObject number fun o => o.insertHidden (Builtin.global method).name (.object id)).Builds :=
    fun _ h => h.insertHidden hname _
  dsimp only
  split
  · exact hinsert.bind fun _ => builds_defineGlobal _ _
  · exact builds_defineGlobal _ _

theorem builds_installTextFunctions : installTextFunctions.Builds := by
  have hrename : ∀ (id : ObjectId) (v : Value),
      (modifyObject id fun o => o.insert "name" (.data v false false true)).Builds :=
    fun _ _ _ h => h.insert (by decide) rfl
  refine .bind (hrename _ _) fun _ => .bind (builds_defineGlobal _ _) fun _ => .bind (hrename _ _) fun _ => ?_
  exact .bind (builds_installConstant _ (by decide) _) fun _ => builds_defineGlobal _ _

/-- **All built-in objects are reserved** when they are built. -/
theorem builds_installAll : installAll.Builds := by
  refine .bind (builds_forM fun i _ => (builds_discard _).mpr i.object_reserved) fun _ => ?_
  refine .bind trivial fun _ => .bind trivial fun _ => .bind trivial fun _ => ?_
  refine .bind builds_installObject fun _ => .bind builds_installFunctionPrototype fun _ => ?_
  refine .bind builds_installArray fun _ => .bind builds_installString fun _ => ?_
  refine .bind builds_installNumber fun number => .bind builds_installBoolean fun _ => ?_
  refine .bind builds_installSymbol fun _ => .bind builds_installErrors fun _ => ?_
  refine .bind builds_installMath fun _ => .bind builds_installJson fun _ => ?_
  refine .bind builds_installDate fun _ => .bind builds_installRegex fun _ => ?_
  refine .bind (builds_forM fun kind _ => builds_installCollection kind) fun _ => ?_
  exact .bind (builds_installGlobals number) fun _ => builds_installTextFunctions

end Eval

/-! ## 4. The first machine -/

namespace Realm

theorem size_walk (heap : Array Object) :
    ∀ (fuel : Nat) (l : List (ObjectId × String)) (seen : Array Bool) (labels : Array (Option String)),
      (walk heap fuel l seen labels).2.size = labels.size
  | 0, _, _, _ => rfl
  | _ + 1, [], _, _ => rfl
  | fuel + 1, (id, label) :: rest, seen, labels => by
    unfold walk
    split
    · exact size_walk heap fuel rest seen labels
    · rw [size_walk heap fuel]
      exact Array.size_modify

/-- There is a place for the label of each object, and for no more. -/
theorem size_labelsOf (heap : Array Object) (globals : List (String × Value)) :
    (labelsOf heap globals).size = heap.size := by
  have hown : ∀ l : List (ObjectId × String),
      (l.foldr (fun entry labels => labels.setIfInBounds entry.1.index (some entry.2))
        (Array.replicate heap.size (none : Option String))).size = heap.size := by
    intro l
    induction l with
    | nil => simp
    | cons entry l ih => simpa using ih
  unfold labelsOf
  rw [size_walk, hown]

end Realm

namespace Machine

/-- The first machine is one that holds reserved objects, sealed. -/
theorem initial_eq : ∃ m : Machine, initial = m.sealed ∧ ∀ o ∈ m.heap, o.Reserved := by
  refine ⟨finalMachine (Eval.installAll.runOn {}), by unfold initial; rfl, ?_⟩
  exact Eval.reserved_runOn Eval.builds_installAll (by simp)

/-- The first machine holds reserved objects only. -/
theorem initial_reserved (id : ObjectId) : (initial.objectAt id).Reserved := by
  obtain ⟨m, hinitial, hbuilt⟩ := initial_eq
  rw [hinitial]
  change (m.heap.getD id.index default).Reserved
  rw [Array.getD_eq_getD_getElem?]
  cases hget : m.heap[id.index]? with
  | none => exact .empty
  | some o => exact hbuilt o (Array.mem_of_getElem? hget)

/-- In the first machine there is a place for the label of each object, and for no more. -/
theorem initial_size_labels : initial.realm.labels.size = initial.heap.size := by
  obtain ⟨m, hinitial, -⟩ := initial_eq
  rw [hinitial]
  exact Realm.size_labelsOf m.heap m.realm.globals

end Machine

end GuestScript
