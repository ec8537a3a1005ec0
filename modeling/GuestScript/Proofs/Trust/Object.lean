import GuestScript.Evaluator

/-!
# Trust in reading, converting and writing

Which objects an action writes to cannot be read off its type. This module says what it means that an action writes
only where it may: to objects that are *free*, as a `Watch` has it, and to the result of a program only where it may
note one. Both are properties of the tree of an action, so they are shown function by function, without running
anything.

* `Eval.Yields` is what can be known about the result of an action, for any answers to its requests.
* `Eval.Trusted` is that every write of the action is allowed, given what its earlier parts yield.

The actions on objects and names that everything else is put together from. Most of them only read, allocate or ask,
and are trusted for that. Those that write say what for:

* a new object is free;
* an object that `checkMutable` lets pass is free, so `put`, `defineOrThrow` and `deleteProperty` are trusted with any
  object.

Each lemma unfolds one action and walks through its tree. The lemmas before it are simplification rules, so `simp`
closes what has no branch.
-/

namespace GuestScript

/-! ## 1. Watches -/

/-- What is known about the states that an action runs in. The laws say which objects are known to be free, and that
writes to free objects keep what holds. -/
structure Watch where
  /-- The objects that may be written to. -/
  Free : ObjectId → Prop
  /-- What holds of the objects at all times. -/
  Fits : State → Prop
  /-- Whether there can be a target of `new`. -/
  constructing : Bool
  /-- Whether the result of a program may be noted. -/
  notes : Bool
  unlabeled_free : ∀ {s id}, Fits s → s.realm.label? id = none → Free id
  date_free : ∀ {s id}, Fits s → (s.objectAt id).sort = .date → Free id
  collection_free : ∀ {s id kind}, Fits s → (s.objectAt id).sort = .collection kind → Free id
  listed_free : ∀ {s id name}, Fits s → name ∈ (s.objectAt id).enumerableNames → Free id
  fresh_free : ∀ {s}, Fits s → Free ⟨s.heap.size⟩
  fits_of_eq : ∀ {s s' : State}, Fits s → s'.heap = s.heap → s'.realm.labels = s.realm.labels → Fits s'
  fits_push : ∀ {s}, Fits s → ∀ o, Fits { s with heap := s.heap.push o }
  fits_set : ∀ {s id}, Fits s → Free id → ∀ o, Fits { s with heap := s.heap.setIfInBounds id.index o }

namespace Watch

/-- The states that an action can meet. -/
structure Meets (w : Watch) (s : State) : Prop where
  fits : w.Fits s
  target : s.newTarget.isSome → w.constructing = true

/-- The watch inside a call or a program: there may be a result to note. -/
def noting (w : Watch) : Watch :=
  { w with notes := true }

/-- The watch with another target of `new`. -/
def targeting (w : Watch) (target : Option ObjectId) : Watch :=
  { w with constructing := target.isSome }

/-- The watch inside a frame. -/
def inside (w : Watch) : Frame → Watch
  | .target target => w.targeting target
  | .program _ _ => w.noting
  | _ => w

end Watch

/-! ## 2. What actions yield -/

/-- What can be known about what an update gives back. -/
def Update.Yields (w : Watch) : {α : Type} → Update α → α → Prop
  | _, .allocate _ => w.Free
  | _, _ => fun _ => True

/-- Whether an update writes only where it may. Names are written to the object of a scope, whatever it is. -/
def Update.Allowed (w : Watch) : {α : Type} → Update α → Prop
  | _, .object id _ | _, .link id _ => w.Free id
  | _, .result _ => w.notes = true
  | _, _ => True

namespace Eval

/-- What can be known about the result of an action. -/
def Yields {α : Type} : Eval α → Watch → α → Prop
  | .done a, _ => fun b => b = a
  | .andThen x f, w => fun b => ∃ a, x.Yields w a ∧ (f a).Yields w b
  | .stop _, _ => fun _ => False
  | .read f, w => fun b => ∃ s, w.Meets s ∧ f s = b
  | .update u, w => u.Yields w
  | .settle x, w => fun r => ∀ a, r = .ok a → x.Yields w a
  | .within frame x, w => x.Yields (w.inside frame)
  | .nest _ x refused, w => fun a => x.Yields w.noting a ∨ refused.Yields w a
  | _, _ => fun _ => True

/-- Whether an action writes only where it may. -/
def Trusted {α : Type} : Eval α → Watch → Prop
  | .andThen x f, w => x.Trusted w ∧ ∀ a, x.Yields w a → (f a).Trusted w
  | .update u, w => u.Allowed w
  | .settle x, w => x.Trusted w
  | .within frame x, w => x.Trusted (w.inside frame)
  | .nest _ x refused, w => x.Trusted w.noting ∧ refused.Trusted w
  | .loop round _, w => ∀ s, (round s).Trusted w
  | _, _ => True

/-! ## 3. Trust in the parts of an action -/

section

variable {x : Eval α}

variable {α β σ : Type} {w : Watch}

@[simp] theorem trusted_pure (a : α) : (pure a : Eval α).Trusted w := trivial

@[simp] theorem trusted_stop (s : Stop) : (stop s : Eval α).Trusted w := trivial

@[simp] theorem trusted_read (f : State → α) : (read f).Trusted w := trivial

@[simp] theorem trusted_charge : charge.Trusted w := trivial

@[simp] theorem trusted_counted : counted.Trusted w := trivial

@[simp] theorem trusted_clock : clock.Trusted w := trivial

@[simp] theorem trusted_bind (x : Eval α) (f : α → Eval β) :
    (x >>= f).Trusted w ↔ x.Trusted w ∧ ∀ a, x.Yields w a → (f a).Trusted w := Iff.rfl

theorem Trusted.bind {x : Eval α} {f : α → Eval β} (hx : x.Trusted w)
    (hf : ∀ a, x.Yields w a → (f a).Trusted w) : (x >>= f).Trusted w := ⟨hx, hf⟩

@[simp] theorem trusted_map (f : α → β) (x : Eval α) : (f <$> x).Trusted w ↔ x.Trusted w :=
  ⟨And.left, fun h => ⟨h, fun _ _ => trivial⟩⟩

@[simp] theorem trusted_discard (x : Eval α) : (discard x).Trusted w ↔ x.Trusted w :=
  trusted_map _ x

@[simp] theorem trusted_settle (x : Eval α) : (settle x).Trusted w ↔ x.Trusted w := Iff.rfl

@[simp] theorem trusted_within (frame : Frame) : (within frame x).Trusted w ↔ x.Trusted (w.inside frame) := Iff.rfl

@[simp] theorem trusted_nest (name : String) (x refused : Eval α) :
    (nest name x refused).Trusted w ↔ x.Trusted w.noting ∧ refused.Trusted w := Iff.rfl

@[simp] theorem trusted_loop (round : σ → Eval (Flow σ α)) (start : σ) :
    (loop round start).Trusted w ↔ ∀ s, (round s).Trusted w := Iff.rfl

@[simp] theorem trusted_inScope (scope : ScopeId) (x : Eval α) :
    (inScope scope x).Trusted w ↔ x.Trusted w := Iff.rfl

@[simp] theorem trusted_inFrame (scope : ScopeId) (receiver : Value) :
    (inFrame scope receiver x).Trusted w ↔ x.Trusted w := Iff.rfl

@[simp] theorem trusted_withNewTarget (target : Option ObjectId) (x : Eval α) :
    (withNewTarget target x).Trusted w ↔ x.Trusted (w.targeting target) := Iff.rfl

@[simp] theorem trusted_ite (c : Prop) [Decidable c] (x y : Eval α) :
    (if c then x else y).Trusted w ↔ (c → x.Trusted w) ∧ (¬ c → y.Trusted w) := by
  split <;> simp [*]

theorem yields_ite {c : Prop} [Decidable c] {x y : Eval α} {a : α} (h : (if c then x else y).Yields w a) :
    c ∧ x.Yields w a ∨ ¬ c ∧ y.Yields w a := by
  split at h
  · exact .inl ⟨‹c›, h⟩
  · exact .inr ⟨‹¬ c›, h⟩

/-! ### Lists of actions -/

@[simp] theorem trusted_forM.{u} {ι : Type u} {f : ι → Eval PUnit} :
    ∀ {l : List ι}, (∀ a ∈ l, (f a).Trusted w) → (l.forM f).Trusted w
  | [], _ => trivial
  | a :: l, h => ⟨h a (by simp), fun _ _ => trusted_forM fun b hb => h b (by simp [hb])⟩

@[simp] theorem trusted_foldlM {f : β → α → Eval β} (h : ∀ b a, (f b a).Trusted w) :
    ∀ (l : List α) (b : β), (l.foldlM f b).Trusted w
  | [], _ => trivial
  | a :: l, b => ⟨h b a, fun b _ => trusted_foldlM h l b⟩

theorem trusted_mapM_loop {f : α → Eval β} (h : ∀ a, (f a).Trusted w) :
    ∀ (l : List α) (acc : List β), (List.mapM.loop f l acc).Trusted w
  | [], _ => trivial
  | a :: l, acc => ⟨h a, fun b _ => trusted_mapM_loop h l (b :: acc)⟩

@[simp] theorem trusted_mapM {f : α → Eval β} (h : ∀ a, (f a).Trusted w) (l : List α) :
    (l.mapM f).Trusted w :=
  trusted_mapM_loop h l []

end

end Eval

end GuestScript

namespace GuestScript.Eval

variable {receiver left right : Value}
variable {α : Type} {w : Watch} (id : ObjectId) (v : Value) (target : Value) (key : Key) (name : String)
  (value : Value)

/-! ## 4. New objects -/

@[simp] theorem trusted_allocate (o : Object) : (allocate o).Trusted w := trivial

@[simp] theorem trusted_updateObject (f : Object → Object × α) :
    (updateObject id f).Trusted w ↔ w.Free id := Iff.rfl

@[simp] theorem trusted_modifyObject (f : Object → Object) :
    (modifyObject id f).Trusted w ↔ w.Free id := Iff.rfl

@[simp] theorem trusted_newObject (prototype : Option ObjectId) : (newObject prototype).Trusted w := trivial

theorem yields_newObject {prototype : Option ObjectId} {id : ObjectId}
    (h : (newObject prototype).Yields w id) : w.Free id := h

@[simp] theorem trusted_newPlain : newPlain.Trusted w := trivial

theorem yields_newPlain {id : ObjectId} (h : newPlain.Yields w id) : w.Free id := h

@[simp] theorem trusted_newArray (elements : Array Value) : (newArray elements).Trusted w := by
  unfold newArray
  simp

@[simp] theorem trusted_newArguments (elements : Array Value) : (newArguments elements).Trusted w := trivial

@[simp] theorem trusted_newFunction (c : Callable) : (newFunction c).Trusted w := by
  refine (trusted_allocate _).bind fun id hid => ?_
  cases c with
  | closure template scope captured =>
    dsimp only
    split
    · exact (trusted_allocate _).bind fun _ _ => ⟨hid, fun _ _ => trivial⟩
    · trivial
  | _ => trivial

/-! ## 5. Faults -/

@[simp] theorem trusted_throwValue : (throwValue v : Eval α).Trusted w := trivial

@[simp] theorem trusted_throwFault (kind : ErrorKind) (message : String) :
    (throwFault kind message : Eval α).Trusted w := by
  unfold throwFault newError
  simp

theorem yields_throwFault {kind : ErrorKind} {message : String} {a : α}
    (h : (throwFault kind message : Eval α).Yields w a) : False := by
  obtain ⟨_, _, h⟩ := h
  exact h

@[simp] theorem trusted_throwTypeError (message : String) : (throwTypeError message : Eval α).Trusted w := by
  unfold throwTypeError
  simp

@[simp] theorem trusted_raise (d : Diagnostic) (subject : String) (position : Option Position) :
    (raise d subject position : Eval α).Trusted w := by
  unfold raise
  simp

/-- Nothing comes after a diagnostic. -/
theorem yields_raise {d : Diagnostic} {subject : String} {position : Option Position} {a : α}
    (h : (raise d subject position : Eval α).Yields w a) : False := by
  unfold raise at h
  split at h
  · exact h
  · exact yields_throwFault h

@[simp] theorem trusted_display : (display v).Trusted w := trivial

@[simp] theorem trusted_hideGlobal : (hideGlobal v).Trusted w := by
  unfold hideGlobal
  split <;> simp

/-! ## 6. Reads -/

@[simp] theorem trusted_object : (object id).Trusted w := trivial

@[simp] theorem trusted_callable? : (callable? v).Trusted w := by
  unfold callable?
  split <;> simp

@[simp] theorem trusted_isCallable : (isCallable v).Trusted w := by
  unfold isCallable
  simp

@[simp] theorem trusted_isConstructor : (isConstructor v).Trusted w := by
  unfold isConstructor
  simp

@[simp] theorem trusted_currentReceiver : currentReceiver.Trusted w := trivial

@[simp] theorem trusted_call (function receiver : Value) (args : Array Value) :
    (call function receiver args).Trusted w := trivial

@[simp] theorem trusted_construct (function : Value) (args : Array Value) :
    (construct function args).Trusted w := trivial

@[simp] theorem trusted_initParent (parent : ObjectId) (args : Array Value) :
    (initParent parent receiver args).Trusted w := trivial

@[simp] theorem trusted_evalText (code : Option Value) (scope : ScopeId) :
    (evalText code scope receiver).Trusted w := trivial

@[simp] theorem trusted_tick (position : Option Position) : (tick position).Trusted w := by
  refine trusted_charge.bind fun _ _ => ?_
  cases position <;> trivial

@[simp] theorem trusted_lookup? : (lookup? id key).Trusted w := trivial

@[simp] theorem trusted_hasProperty : (hasProperty id key).Trusted w := trivial

@[simp] theorem trusted_enumerableNames : (enumerableNames id).Trusted w := by
  refine (trusted_read _).bind fun names _ => ?_
  cases names <;> trivial

@[simp] theorem trusted_scopeAt (id : ScopeId) : (scopeAt id).Trusted w := trivial

@[simp] theorem trusted_currentScope : currentScope.Trusted w := trivial

@[simp] theorem trusted_newScope (s : Scope) : (newScope s).Trusted w := trivial

@[simp] theorem trusted_openFrame (kind : ScopeKind) (parent : Option ScopeId)
    (lexical : List (String × LexicalRecord)) (held : Array (Key × Property)) :
    (openFrame kind parent lexical held).Trusted w := trivial

@[simp] theorem trusted_newFrame (kind : ScopeKind) (parent : ScopeId) (frame : LexicalFrame) :
    (newFrame kind parent frame).Trusted w := trivial

@[simp] theorem trusted_setVariable (id : ScopeId) : (setVariable id name value).Trusted w := trivial

@[simp] theorem trusted_initializeIn (id : ScopeId) (name : String) (value : Value) :
    (initializeIn id name value).Trusted w := ⟨trivial, fun _ _ => trivial⟩

@[simp] theorem trusted_forkScope (id : ScopeId) : (forkScope id).Trusted w := by
  unfold forkScope
  simp

/-! ## 7. Conversions -/

@[simp] theorem trusted_readProperty (p : Option Property) : (readProperty receiver p).Trusted w := by
  unfold readProperty
  repeat' split
  all_goals simp

@[simp] theorem trusted_get : (get target key).Trusted w := by
  unfold get
  repeat' split
  all_goals simp

@[simp] theorem trusted_getNamed : (getNamed target name).Trusted w := by
  unfold getNamed
  simp

@[simp] theorem trusted_noPrimitive  :
    (noPrimitive : Eval α).Trusted w := by
  unfold noPrimitive
  simp

@[simp] theorem trusted_primitiveBy? : (primitiveBy? v name).Trusted w := by
  unfold primitiveBy?
  simp

@[simp] theorem trusted_toPrimitive (hint : Hint) : (toPrimitive v hint).Trusted w := by
  unfold toPrimitive
  cases v with
  | object id =>
    refine (trusted_get _ _).bind fun convert _ => ?_
    split
    · simp
    · refine (trusted_object id).bind fun o _ => ?_
      refine Trusted.bind (by simp) fun first _ => ?_
      split
      · trivial
      · refine Trusted.bind (by simp) fun second _ => ?_
        split <;> simp
  | _ => simp

@[simp] theorem trusted_primitiveToNumber : (primitiveToNumber v).Trusted w := by
  cases v with
  | symbol s => exact trusted_throwTypeError _
  | _ => trivial

@[simp] theorem trusted_toNumber : (toNumber v).Trusted w := by
  unfold toNumber
  cases v with
  | number x => trivial
  | object id => exact ⟨trusted_toPrimitive _ _, fun _ _ => trusted_primitiveToNumber _⟩
  | _ => exact trusted_primitiveToNumber _

@[simp] theorem trusted_toInteger : (toInteger v).Trusted w :=
  ⟨trusted_toNumber v, fun _ _ => trivial⟩

@[simp] theorem trusted_primitiveToText : (primitiveToText v).Trusted w := by
  cases v with
  | symbol s => exact trusted_throwTypeError _
  | _ => trivial

@[simp] theorem trusted_toText : (toText v).Trusted w := by
  unfold toText
  cases v with
  | string s => trivial
  | object id => exact ⟨trusted_toPrimitive _ _, fun _ _ => trusted_primitiveToText _⟩
  | _ => exact trusted_primitiveToText _

@[simp] theorem trusted_primitiveToKey : (primitiveToKey v).Trusted w := by
  cases v with
  | symbol s => trivial
  | _ => exact ⟨trusted_primitiveToText _, fun _ _ => trivial⟩

@[simp] theorem trusted_toKey : (toKey v).Trusted w := by
  unfold toKey
  cases v with
  | string s => trivial
  | object id => exact ⟨trusted_toPrimitive _ _, fun _ _ => trusted_primitiveToKey _⟩
  | _ => exact trusted_primitiveToKey _

@[simp] theorem trusted_toObject : (toObject v).Trusted w := by
  cases v with
  | undefined => exact ⟨trusted_display _, fun _ _ => trusted_throwTypeError _⟩
  | null => exact ⟨trusted_display _, fun _ _ => trusted_throwTypeError _⟩
  | _ => trivial

@[simp] theorem trusted_typeName : (typeName v).Trusted w := by
  cases v with
  | object id => exact ⟨trusted_isCallable _, fun _ _ => trivial⟩
  | _ => trivial

/-! ## 8. Writes -/

@[simp] theorem trusted_checkMutable : (checkMutable id).Trusted w := by
  refine (trusted_read _).bind fun label _ => ?_
  cases label <;> simp

/-- An object that may be written to is free. -/
theorem yields_checkMutable {id : ObjectId} {a : Unit} (h : (checkMutable id).Yields w a) :
    w.Free id := by
  obtain ⟨label, ⟨s, hs, hlabel⟩, h⟩ := h
  cases label with
  | none => exact w.unlabeled_free hs.fits hlabel
  | some name =>
    obtain ⟨_, _, h⟩ := h
    exact (yields_raise h).elim

@[simp] theorem trusted_defineOwn (d : Descriptor) :
    (defineOwn id key d).Trusted w ↔ w.Free id := Iff.rfl

@[simp] theorem trusted_put_addOwn {id : ObjectId} (h : w.Free id) (key : Key) (value : Value) :
    (put.addOwn key value id).Trusted w := by
  unfold put.addOwn
  simp [*]

@[simp] theorem trusted_put : (put target key value).Trusted w := by
  unfold put
  cases target with
  | object id =>
    refine (trusted_checkMutable id).bind fun _ h => ?_
    have hfree := yields_checkMutable h
    have hadd : (put.addOwn key value id).Trusted w := trusted_put_addOwn hfree key value
    split
    · trivial
    · refine (trusted_lookup? _ _).bind fun p _ => ?_
      split
      · exact hadd
      · split
        · simp
        · trivial
        · trivial
        · refine (trusted_object id).bind fun o _ => ?_
          split
          · exact (trusted_discard _).mpr hfree
          · exact hadd
  | _ => simp

@[simp] theorem trusted_putNamed : (putNamed target name value).Trusted w := by
  unfold putNamed
  simp

@[simp] theorem trusted_defineOrThrow (d : Descriptor) : (defineOrThrow id key d).Trusted w := by
  refine (trusted_checkMutable id).bind fun _ h => ?_
  simp [yields_checkMutable h]

@[simp] theorem trusted_deleteProperty : (deleteProperty target key).Trusted w := by
  unfold deleteProperty
  cases target with
  | object id => exact (trusted_checkMutable id).bind fun _ h => yields_checkMutable h
  | _ => simp

@[simp] theorem trusted_prototypeValue : (prototypeValue id).Trusted w := by
  refine (trusted_object id).bind fun o _ => ?_
  split <;> trivial

@[simp] theorem trusted_getMember (position : Option Position) : (getMember target key position).Trusted w := by
  unfold getMember
  extract_lets asksPrototype rest
  have hrest : ∀ u, (rest u).Trusted w := by
    intro u
    simp only [rest]
    split
    · split
      · simp
      · simp
      · simp
    · simp
  split
  · split
    · refine (trusted_read _).bind fun label _ => ?_
      split
      · exact (trusted_raise _ _ _).bind fun _ _ => hrest ()
      · exact hrest ()
    · exact hrest ()
  · exact hrest ()

@[simp] theorem trusted_newPairs (entries : List (Value × Value)) :
    (newPairs entries).Trusted w := by
  unfold newPairs
  simp

@[simp] theorem trusted_iterate (label : String) : (iterate v label).Trusted w := by
  unfold iterate
  cases v with
  | object id =>
    refine (trusted_object id).bind fun o _ => ?_
    split
    · trivial
    · split <;> simp
  | _ => simp

@[simp] theorem trusted_readElements (count i : Nat) (acc : Array Value) :
    (readElements target count i acc).Trusted w := by
  induction count generalizing i acc with
  | zero => trivial
  | succ count ih =>
    unfold readElements
    simp [*]

@[simp] theorem trusted_listOf : (listOf v).Trusted w := by
  unfold listOf
  cases v with
  | object id =>
    refine (trusted_object id).bind fun o _ => ?_
    split <;> simp
  | _ => trivial

@[simp] theorem trusted_copyProperties {target : ObjectId} (h : w.Free target) (source : Value) :
    (copyProperties target source).Trusted w := by
  unfold copyProperties
  split
  · trivial
  · refine (trusted_toObject _).bind fun id _ => (trusted_read _).bind fun keys _ => ?_
    exact trusted_forM fun key _ => (trusted_get _ _).bind fun _ _ => (trusted_discard _).mpr h

/-! ## 9. Names -/

@[simp] theorem trusted_resolve (access : State.Access) (position : Option Position) :
    (resolve name access position).Trusted w := by
  refine (trusted_read _).bind fun place _ => ?_
  split <;> simp

@[simp] theorem trusted_readFrom? (scope : ScopeId) (name : String) :
    (readFrom? scope name).Trusted w := by
  refine (trusted_scopeAt _).bind fun s _ => (trusted_lookup? _ _).bind fun p _ => ?_
  cases p <;> simp

@[simp] theorem trusted_resolveValue (position : Option Position) : (resolveValue name position).Trusted w := by
  refine (trusted_resolve _ _ _).bind fun scope _ => (trusted_readFrom? _ _).bind fun v _ => ?_
  cases v <;> simp

@[simp] theorem trusted_readName (position : Option Position) : (readName name position).Trusted w := by
  unfold readName
  simp

@[simp] theorem trusted_readNameOrUndefined (position : Option Position) :
    (readNameOrUndefined name position).Trusted w := by
  unfold readNameOrUndefined
  simp

@[simp] theorem trusted_assignName (position : Option Position) : (assignName name value position).Trusted w := by
  refine (trusted_resolve _ _ _).bind fun scope _ => (trusted_scopeAt scope).bind fun s _ => ?_
  split <;> simp

@[simp] theorem trusted_initializeName (position : Option Position) :
    (initializeName name value position).Trusted w := by
  unfold initializeName
  simp

@[simp] theorem trusted_setLocal : (setLocal name value).Trusted w := by
  unfold setLocal
  simp

@[simp] theorem trusted_instantiate (functions : List (String × Template)) (scope : ScopeId) :
    (instantiate functions scope).Trusted w := by
  exact trusted_forM fun entry _ => (trusted_newFunction _).bind fun _ _ => trivial

@[simp] theorem trusted_declareVars (names : List String) (scope : ScopeId) :
    (declareVars names scope).Trusted w := by
  exact trusted_forM fun _ _ => trivial

/-! ## 10. Operators -/

@[simp] theorem trusted_looseEquals : (looseEquals left right).Trusted w := by
  unfold looseEquals
  repeat' split
  all_goals simp

@[simp] theorem trusted_lessThan : (lessThan left right).Trusted w := by
  refine (trusted_toPrimitive _ _).bind fun l _ => (trusted_toPrimitive _ _).bind fun r _ => ?_
  split <;> simp

@[simp] theorem trusted_add (left right : Value) :
    (add left right).Trusted w := by
  unfold add
  simp

@[simp] theorem trusted_numeric (f : Float → Float → Float) : (numeric f left right).Trusted w := by
  unfold numeric
  simp

@[simp] theorem trusted_instanceOfWithin (fuel : Nat) : (instanceOfWithin fuel v target).Trusted w := by
  induction fuel generalizing target with
  | zero => trivial
  | succ fuel ih =>
    unfold instanceOfWithin
    cases target with
    | object id =>
      refine (trusted_lookup? _ _).bind fun p _ => ?_
      split
      · simp
      · refine (trusted_object id).bind fun o _ => ?_
        split
        · simp
        · exact ih _
        · split
          · refine (trusted_getNamed _ _).bind fun prototype _ => ?_
            split <;> simp
          · trivial
    | _ => simp

@[simp] theorem trusted_instanceOf : (instanceOf v target).Trusted w := by
  unfold instanceOf
  simp

@[simp] theorem trusted_insideOf : (insideOf left right).Trusted w := by
  unfold insideOf
  split <;> simp

@[simp] theorem trusted_binary (operator : BinaryOperator) (left right : Value) :
    (binary operator left right).Trusted w := by
  unfold binary
  split <;> simp

@[simp] theorem trusted_unary (operator : UnaryOperator) (v : Value) (position : Option Position) :
    (unary operator v position).Trusted w := by
  unfold unary
  split <;> simp

end GuestScript.Eval
