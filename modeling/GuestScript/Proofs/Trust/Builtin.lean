import GuestScript.Proofs.Trust.Code

/-!
# Trust in built-in functions

Built-in functions write to their receiver or to an argument in four ways, and each one is safe for its own reason:

* after `checkMutable`: the functions that change arrays and the properties of objects;
* to the instance that a constructor sets up, which is free when there is a target of `new`
  (`yields_constructing?`);
* to a receiver that was found to be a date or a collection, which no protected object is (`yields_receiverTime`,
  `yields_receiverCollection`);
* to the objects that a reviver is called for, one enumerable name after the other; no protected object has one.

None of them notes a result.
-/

namespace GuestScript

variable {receiver : Value} {id : ObjectId} {f : Nat → Value → Eval Value} {keepsOrder : Value → Value → Eval Bool}
  {write : String → Value → Eval (Option String)} (v : Value) (s : String) (args : Array Value) (pattern : Value)

/-- The instance that a built-in constructor may be called for is free. -/
def Watch.Receives (w : Watch) (receiver : Value) : Prop :=
  w.constructing = true → ∀ id, receiver = .object id → w.Free id

namespace Eval

variable {w : Watch} {method name : String} {l : List Value} {subject : Value} {i size : Nat}

/-! ## 1. What they share -/

@[simp] theorem trusted_constructing? (receiver : Value) : (constructing? receiver).Trusted w := trivial

/-- The instance of a constructor is free. -/
theorem yields_constructing? (h : (constructing? receiver).Yields w (some id)) (hr : w.Receives receiver) :
    w.Free id := by
  obtain ⟨s, hs, h⟩ := h
  dsimp only at h
  split at h
  · rename_i t i htarget
    obtain rfl : i = id := by simpa using h
    exact hr (hs.target (by rw [htarget]; rfl)) i rfl
  · cases h

/-- What follows the question for an instance may take it to be free. -/
theorem trusted_constructing_bind {α : Type} (hr : w.Receives receiver) {f : Option ObjectId → Eval α}
    (h : ∀ target, (∀ id, target = some id → w.Free id) → (f target).Trusted w) :
    (constructing? receiver >>= f).Trusted w := by
  refine (trusted_constructing? receiver).bind fun target htarget => h target ?_
  rintro id rfl
  exact yields_constructing? htarget hr

@[simp] theorem trusted_wrapInto (hid : w.Free id) (sort : ObjectClass) (primitive : Value) :
    (wrapInto id sort primitive).Trusted w := by
  unfold wrapInto
  simp [*]

@[simp] theorem trusted_callback (function receiver : Value) (args : Array Value) :
    (callback function receiver args).Trusted w := by
  unfold callback
  simp

@[simp] theorem trusted_requireCallable : (requireCallable v method).Trusted w := by
  unfold requireCallable
  simp

@[simp] theorem trusted_relativeArgument (size default : Nat) : (relativeArgument v size default).Trusted w := by
  unfold relativeArgument
  simp

@[simp] theorem trusted_wrapped? (receiver : Value) (sort : ObjectClass) :
    (wrapped? receiver sort).Trusted w := by
  unfold wrapped?
  split <;> simp

/-! ## 2. Objects -/

@[simp] theorem trusted_field? (id : ObjectId) (name : String) : (field? id name).Trusted w := by
  unfold field?
  simp

@[simp] theorem trusted_accessorField? : (accessorField? id name).Trusted w := by
  refine (trusted_field? id name).bind fun f _ => ?_
  cases f <;> simp

@[simp] theorem trusted_toDescriptor : (toDescriptor v).Trusted w := by
  unfold toDescriptor
  cases v with
  | object id =>
    refine (trusted_field? _ _).bind fun enumerable _ => (trusted_field? _ _).bind fun configurable _ => ?_
    refine (trusted_field? _ _).bind fun value _ => (trusted_field? _ _).bind fun writable _ => ?_
    simp
  | _ => simp

@[simp] theorem trusted_ofProperty (p : Property) : (ofProperty p).Trusted w := by
  exact trusted_newPlain.bind fun id hid => Trusted.bind (yields_newPlain hid) fun _ _ => trivial

@[simp] theorem trusted_defineAll (target : ObjectId) (props : Value) :
    (defineAll target props).Trusted w := by
  refine (trusted_toObject _).bind fun source _ => (trusted_read _).bind fun keys _ => ?_
  refine (trusted_mapM (fun key => ?_) keys).bind fun entries _ => trusted_forM fun entry _ => ?_
  · exact (trusted_get _ _).bind fun _ _ => (trusted_toDescriptor _).bind fun _ _ => trivial
  · exact trusted_defineOrThrow _ _ _

@[simp] theorem trusted_ownEntries : (ownEntries v).Trusted w := by
  unfold ownEntries
  simp

@[simp] theorem trusted_assignFrom (target : ObjectId) (source : Value) :
    (assignFrom target source).Trusted w := by
  unfold assignFrom
  split
  · trivial
  · refine (trusted_toObject _).bind fun id _ => (trusted_read _).bind fun keys _ => trusted_forM fun key _ => ?_
    exact (trusted_get _ _).bind fun _ _ => trusted_put _ _ _

@[simp] theorem trusted_prototypeArgument : (prototypeArgument v).Trusted w := by
  unfold prototypeArgument
  split <;> simp

@[simp] theorem trusted_ofEntries (entries : Array Value) : (ofEntries entries).Trusted w := by
  refine trusted_newPlain.bind fun id hid => (trusted_forM fun entry _ => ?_).bind fun _ _ => trivial
  split <;> simp [yields_newPlain hid]

@[simp] theorem trusted_taggedText : (taggedText v).Trusted w := by
  unfold taggedText
  split
  · trivial
  · trivial
  · refine (trusted_toObject _).bind fun id _ => (trusted_get _ _).bind fun tag _ => ?_
    split <;> simp

@[simp] theorem trusted_setPrototype (prototype : Option ObjectId) : (setPrototype id prototype).Trusted w := by
  refine (trusted_checkMutable id).bind fun _ h => Trusted.bind (yields_checkMutable h) fun _ _ => ?_
  split <;> simp

/-! ## 3. Arrays -/

@[simp] theorem trusted_elementsOf (receiver : Value) : (elementsOf receiver).Trusted w := by
  unfold elementsOf
  simp

@[simp] theorem trusted_flatten (fuel : Nat) (depth : Float) (values : List Value) (acc : Array Value) :
    (flatten fuel depth values acc).Trusted w := by
  induction fuel generalizing depth values acc with
  | zero => trivial
  | succ fuel ih =>
    refine trusted_foldlM (fun acc v => ?_) _ _
    cases v with
    | object id =>
      refine (trusted_object id).bind fun o _ => ?_
      split
      · exact ih _ _ _
      · trivial
    | _ => trivial

@[simp] theorem trusted_writeElements (target : Value) : (writeElements target l i).Trusted w := by
  induction l generalizing i with
  | nil => trivial
  | cons v l ih =>
    unfold writeElements
    simp [*]

@[simp] theorem trusted_deleteElements (target : Value) (count i : Nat) :
    (deleteElements target count i).Trusted w := by
  induction count generalizing i with
  | zero => trivial
  | succ count ih =>
    unfold deleteElements
    simp [*]

@[simp] theorem trusted_checkBounds (fits : Bool) : (checkBounds fits).Trusted w := by
  cases fits <;> trivial

@[simp] theorem trusted_changeElementsIf {α : Type} (receiver : Value) (fits : Nat → Bool)
    (f : Array Value → Array Value × α) : (changeElementsIf receiver fits f).Trusted w := by
  refine (trusted_toObject _).bind fun id _ => (trusted_checkMutable id).bind fun _ h => ?_
  simp [yields_checkMutable h]

@[simp] theorem trusted_changeElements {α : Type} (f : Array Value → Array Value × α) :
    (changeElements receiver f).Trusted w :=
  trusted_changeElementsIf receiver _ f

@[simp] theorem trusted_callbackArgument : (callbackArgument args method).Trusted w := by
  unfold callbackArgument
  simp

@[simp] theorem trusted_visit (f receiver subject : Value) : (visit f receiver subject i v).Trusted w := by
  unfold visit
  simp

@[simp] theorem trusted_mapElements (hf : ∀ i v, (f i v).Trusted w) (l : List (Nat × Value)) (acc : Array Value) :
    (mapElements f l acc).Trusted w := by
  induction l generalizing acc with
  | nil => trivial
  | cons entry l ih =>
    unfold mapElements
    simp [*]

@[simp] theorem trusted_filterElements (hf : ∀ i v, (f i v).Trusted w) (l : List (Nat × Value)) (acc : Array Value) :
    (filterElements f l acc).Trusted w := by
  induction l generalizing acc with
  | nil => trivial
  | cons entry l ih =>
    unfold filterElements
    simp [*]

@[simp] theorem trusted_findElement (hf : ∀ i v, (f i v).Trusted w) (wanted : Bool) (l : List (Nat × Value)) :
    (findElement f wanted l).Trusted w := by
  induction l with
  | nil => trivial
  | cons entry l ih =>
    unfold findElement
    simp [*]

@[simp] theorem trusted_foldElements (f subject : Value) (l : List (Nat × Value)) (acc : Value) :
    (foldElements f subject l acc).Trusted w := by
  induction l generalizing acc with
  | nil => trivial
  | cons entry l ih =>
    unfold foldElements
    simp [*]

@[simp] theorem trusted_reduceElements (l : List (Nat × Value)) : (reduceElements subject args l).Trusted w := by
  unfold reduceElements
  split <;> simp

@[simp] theorem trusted_searchElements (fromEnd : Bool) : (searchElements subject args fromEnd method).Trusted w := by
  unfold searchElements
  simp

@[simp] theorem trusted_merge (h : ∀ a b, (keepsOrder a b).Trusted w) (count : Nat) (ls rs acc : List Value) :
    (merge keepsOrder count ls rs acc).Trusted w := by
  induction count generalizing ls rs acc with
  | zero => trivial
  | succ count ih =>
    rcases ls with _ | ⟨l, ls⟩
    · trivial
    rcases rs with _ | ⟨r, rs⟩
    · trivial
    · unfold merge
      refine (h _ _).bind fun keeps _ => ?_
      split
      · exact ih _ _ _
      · exact ih _ _ _

@[simp] theorem trusted_mergeSort (h : ∀ a b, (keepsOrder a b).Trusted w) (fuel : Nat) :
    (mergeSort keepsOrder fuel l).Trusted w := by
  induction fuel generalizing l with
  | zero => trivial
  | succ fuel ih =>
    unfold mergeSort
    simp [*]

@[simp] theorem trusted_sortValues (values : Array Value) (compare : Value) :
    (sortValues values compare).Trusted w := by
  unfold sortValues
  simp

@[simp] theorem trusted_compareArgument : (compareArgument args method).Trusted w := by
  unfold compareArgument
  simp

@[simp] theorem trusted_joinElements (separator : String) (isFirst : Bool) (acc : String) :
    (joinElements separator l isFirst acc).Trusted w := by
  induction l generalizing isFirst acc with
  | nil => trivial
  | cons v l ih =>
    unfold joinElements
    simp [*]

@[simp] theorem trusted_joinReceiver (receiver separator : Value) :
    (joinReceiver receiver separator).Trusted w := by
  unfold joinReceiver
  split <;> simp

@[simp] theorem trusted_deleteCount (size start : Nat) : (deleteCount args size start).Trusted w := by
  unfold deleteCount
  split <;> simp

@[simp] theorem trusted_sourceValues (source : Value) : (sourceValues source).Trusted w := by
  unfold sourceValues
  split <;> simp

@[simp] theorem trusted_constructorElements : (constructorElements args).Trusted w := by
  unfold constructorElements
  split <;> simp

@[simp] theorem trusted_lastStart (size : Nat) : (lastStart args size).Trusted w := by
  unfold lastStart
  split <;> simp

@[simp] theorem trusted_placeOf : (placeOf v size).Trusted w := by
  unfold placeOf
  simp

/-! ## 4. Collections -/

@[simp] theorem trusted_receiverCollection (receiver : Value) (kind : CollectionKind) (method : String) :
    (receiverCollection receiver kind method).Trusted w := by
  unfold receiverCollection
  split <;> simp

/-- No protected object is a collection. -/
theorem yields_receiverCollection {kind : CollectionKind} {method : String}
    (h : (receiverCollection receiver kind method).Yields w id) : w.Free id := by
  cases receiver with
  | object i =>
    obtain ⟨o, ⟨s, hs, rfl⟩, h⟩ := h
    obtain ⟨hsort, rfl⟩ | ⟨_, _, _, h⟩ := yields_ite h
    · exact w.collection_free hs.fits (of_decide_eq_true (Bool.and_eq_true_iff.mp hsort).1)
    · exact (yields_throwFault h).elim
  | _ =>
    obtain ⟨_, _, h⟩ := h
    exact (yields_throwFault h).elim

@[simp] theorem trusted_checkWeakKey (kind : CollectionKind) (key : Value) :
    (checkWeakKey kind key).Trusted w := by
  unfold checkWeakKey
  simp

@[simp] theorem trusted_insertEntry (hid : w.Free id) (key value : Value) : (insertEntry id key value).Trusted w := by
  unfold insertEntry
  simp [*]

@[simp] theorem trusted_insertMember (hid : w.Free id) (member : Value) : (insertMember id member).Trusted w := by
  unfold insertMember
  simp [*]

@[simp] theorem trusted_insertItem (hid : w.Free id) (kind : CollectionKind) (item : Value) :
    (insertItem kind id item).Trusted w := by
  unfold insertItem
  simp [*]

@[simp] theorem trusted_makeCollection (hr : w.Receives receiver) (kind : CollectionKind) :
    (makeCollection kind receiver args).Trusted w := by
  refine trusted_constructing_bind hr fun target hfree => ?_
  cases target with
  | none => simp
  | some id =>
    have hid := hfree id rfl
    refine Trusted.bind hid fun _ _ => ?_
    dsimp only
    split
    · refine (trusted_iterate _ _).bind fun items _ => (trusted_forM fun item _ => ?_).bind fun _ _ => trivial
      exact trusted_insertItem hid kind item
    · trivial

@[simp] theorem trusted_forEachEntry (f receiver : Value) (this : Value) :
    (forEachEntry f receiver id this).Trusted w := by
  refine (trusted_loop _ _).mpr fun start => (trusted_object id).bind fun o _ => ?_
  split
  · trivial
  · exact ((trusted_discard _).mpr (trusted_callback _ _ _)).bind fun _ _ => trivial

/-! ## 5. Dates -/

@[simp] theorem trusted_now : now.Trusted w := by
  unfold now
  simp

@[simp] theorem trusted_receiverTime (receiver : Value) : (receiverTime receiver).Trusted w := by
  unfold receiverTime
  cases receiver with
  | object id =>
    refine (trusted_object id).bind fun o _ => ?_
    split <;> simp
  | _ => simp

/-- No protected object is a date. -/
theorem yields_receiverTime {t : Float} (h : (receiverTime receiver).Yields w t) :
    ∀ id, receiver = .object id → w.Free id := by
  rintro id rfl
  obtain ⟨o, ⟨s, hs, rfl⟩, h⟩ := h
  dsimp only at h
  split at h
  · exact w.date_free hs.fits ‹_›
  · exact (yields_throwFault h).elim

@[simp] theorem trusted_storeTime (hr : ∀ id, receiver = .object id → w.Free id) (t : Float) :
    (storeTime receiver t).Trusted w := by
  unfold storeTime
  split <;> simp +contextual [*]

@[simp] theorem trusted_timeParts : (timeParts args).Trusted w := by
  unfold timeParts
  simp

@[simp] theorem trusted_timeOf : (timeOf v).Trusted w := by
  unfold timeOf
  extract_lets convert
  have hconvert : convert.Trusted w := by
    refine (trusted_toPrimitive _ _).bind fun p _ => ?_
    split <;> simp
  cases v with
  | object id =>
    refine (trusted_object id).bind fun o _ => ?_
    split
    · trivial
    · exact hconvert
  | _ => exact hconvert

@[simp] theorem trusted_constructorTime : (constructorTime args).Trusted w := by
  unfold constructorTime
  split <;> simp

@[simp] theorem trusted_writeParts (field count i : Nat) (parts : Array Float) :
    (writeParts args field count i parts).Trusted w := by
  induction count generalizing i parts with
  | zero => trivial
  | succ count ih =>
    unfold writeParts
    simp [*]

@[simp] theorem trusted_writeTime (field : DateField) : (writeTime receiver args field).Trusted w := by
  refine (trusted_receiverTime receiver).bind fun t h => ?_
  split
  · trivial
  · exact (trusted_writeParts _ _ _ _ _).bind fun parts _ => trusted_storeTime (yields_receiverTime h) _

@[simp] theorem trusted_timeText (render : Time.Parts → String) : (timeText receiver render).Trusted w := by
  unfold timeText
  simp

/-! ## 6. Errors -/

@[simp] theorem trusted_textField (name absent : String) : (textField v name absent).Trusted w := by
  unfold textField
  simp

@[simp] theorem trusted_errorText : (errorText v).Trusted w := by
  unfold errorText
  simp

@[simp] theorem trusted_setMessage (hid : w.Free id) (message : Value) : (setMessage id message).Trusted w := by
  unfold setMessage
  simp [*]

@[simp] theorem trusted_setCause (hid : w.Free id) (options : Value) : (setCause id options).Trusted w := by
  unfold setCause
  split <;> simp +contextual [*]

@[simp] theorem trusted_fillError (hid : w.Free id) (args : Array Value) : (fillError id args).Trusted w := by
  unfold fillError
  simp [*]

@[simp] theorem trusted_makeError (hr : w.Receives receiver) (kind : ErrorKind) :
    (makeError kind receiver args).Trusted w := by
  refine trusted_constructing_bind hr fun target hfree => ?_
  cases target with
  | none => exact (trusted_newObject _).bind fun id hid => trusted_fillError (yields_newObject hid) args
  | some id => exact trusted_fillError (hfree id rfl) args

/-! ## 7. Documents -/

mutual

@[simp] theorem trusted_ofJson : (j : Json) → (ofJson j).Trusted w
  | .null | .bool _ | .number _ | .string _ => trivial
  | .array items => (trusted_ofJsonItems items #[]).bind fun _ _ => trusted_newArray _
  | .object members => trusted_newPlain.bind fun _ hid =>
    (trusted_ofJsonMembers (yields_newPlain hid) members).bind fun _ _ => trivial

theorem trusted_ofJsonItems : (items : List Json) → ∀ acc, (ofJsonItems items acc).Trusted w
  | [], _ => trivial
  | item :: rest, _ => (trusted_ofJson item).bind fun _ _ => trusted_ofJsonItems rest _

theorem trusted_ofJsonMembers {id : ObjectId} (hid : w.Free id) :
    (members : List (String × Json)) → (ofJsonMembers id members).Trusted w
  | [] => trivial
  | (_, value) :: rest => (trusted_ofJson value).bind fun _ _ =>
    Trusted.bind ((trusted_discard _).mpr hid) fun _ _ => trusted_ofJsonMembers hid rest

end

/-- A reviver writes to objects that have an enumerable name. -/
@[simp] theorem trusted_revive (reviver : Value) (fuel : Nat) (holder : Value) (name : String) :
    (revive reviver fuel holder name).Trusted w := by
  induction fuel generalizing holder name with
  | zero => trivial
  | succ fuel ih =>
    refine (trusted_getNamed holder name).bind fun v _ => ?_
    cases v with
    | object id =>
      refine (trusted_read _).bind fun names hnames => Trusted.bind (trusted_forM fun k hk => ?_) fun _ _ => ?_
      · obtain ⟨s, hs, rfl⟩ := hnames
        have hfree := w.listed_free hs.fits hk
        simp [*]
      · trivial
    | _ => trivial

@[simp] theorem trusted_parseJson (text : String) (reviver : Value) :
    (parseJson text reviver).Trusted w := by
  unfold parseJson
  split
  · simp
  · refine (trusted_ofJson _).bind fun v _ => (trusted_isCallable _).bind fun revives _ => ?_
    split
    · exact trusted_newPlain.bind fun root hroot =>
        Trusted.bind (yields_newPlain hroot) fun _ _ => trusted_revive _ _ _ _
    · trivial

@[simp] theorem trusted_jsonConverted : (jsonConverted name v).Trusted w := by
  unfold jsonConverted
  simp

@[simp] theorem trusted_jsonReplaced (style : JsonStyle) (holder : Value) :
    (jsonReplaced style holder name v).Trusted w := by
  unfold jsonReplaced
  split <;> simp

@[simp] theorem trusted_jsonUnwrapped : (jsonUnwrapped v).Trusted w := by
  unfold jsonUnwrapped
  cases v with
  | object id =>
    refine (trusted_object id).bind fun o _ => ?_
    split
    · split <;> simp
    · trivial
  | _ => trivial

@[simp] theorem trusted_jsonForm (style : JsonStyle) (holder : Value) (name : String) (value : Value) :
    (jsonForm style holder name value).Trusted w := by
  unfold jsonForm
  simp

@[simp] theorem trusted_jsonElements (hw : ∀ name v, (write name v).Trusted w) (acc : List String) :
    (jsonElements write l i acc).Trusted w := by
  induction l generalizing i acc with
  | nil => trivial
  | cons v l ih =>
    unfold jsonElements
    simp [*]

@[simp] theorem trusted_jsonProperties (hw : ∀ name v, (write name v).Trusted w) (target : Value) (separator : String)
    (l acc : List String) :
    (jsonProperties write target separator l acc).Trusted w := by
  induction l generalizing acc with
  | nil => trivial
  | cons v l ih =>
    refine (trusted_getNamed _ _).bind fun value _ => (hw _ _).bind fun text _ => ?_
    cases text with
    | none => exact ih _
    | some text => exact ih _

@[simp] theorem trusted_jsonProperty (style : JsonStyle) (fuel : Nat) (around : List ObjectId) (indent : String)
    (holder : Value) (name : String) (value : Value) :
    (jsonProperty style fuel around indent holder name value).Trusted w := by
  induction fuel generalizing around indent holder name value with
  | zero => trivial
  | succ fuel ih =>
    refine trusted_charge.bind fun _ _ => (trusted_jsonForm style holder name value).bind fun v _ => ?_
    cases v with
    | object id =>
      have hwrite : ∀ k u, (jsonProperty style fuel (id :: around) (indent ++ style.gap) (.object id) k u).Trusted w :=
        ih _ _ _
      refine (trusted_object id).bind fun o _ => ?_
      simp [*]
    | _ => trivial

@[simp] theorem trusted_allowedNames (acc : List String) : (allowedNames l acc).Trusted w := by
  induction l generalizing acc with
  | nil => trivial
  | cons v l ih =>
    unfold allowedNames
    extract_lets rest
    have hrest : ∀ name, (rest name).Trusted w := by
      intro name
      cases name with
      | none => exact ih _
      | some s => exact ih _
    split <;> exact Trusted.bind trivial fun _ _ => hrest _

@[simp] theorem trusted_styleOf (replacer : Value) : (styleOf replacer).Trusted w := by
  unfold styleOf
  split <;> simp

@[simp] theorem trusted_spaceOf (space : Value) : (spaceOf space).Trusted w := by
  unfold spaceOf
  split <;> simp

@[simp] theorem trusted_jsonText (value replacer space : Value) :
    (jsonText value replacer space).Trusted w := by
  refine (trusted_styleOf _).bind fun style _ => (trusted_spaceOf _).bind fun gap _ => ?_
  exact trusted_newPlain.bind fun root hroot =>
    Trusted.bind (yields_newPlain hroot) fun _ _ => trusted_jsonProperty _ _ _ _ _ _ _

/-! ## 8. Numbers, symbols and regular expressions -/

@[simp] theorem trusted_receiverNumber (receiver : Value) (name : String) :
    (receiverNumber receiver name).Trusted w := by
  refine (trusted_wrapped? _ _).bind fun v _ => ?_
  split <;> simp

@[simp] theorem trusted_receiverBoolean : (receiverBoolean receiver name).Trusted w := by
  refine (trusted_wrapped? _ _).bind fun v _ => ?_
  split <;> simp

@[simp] theorem trusted_digitCount (least : Nat) : (digitCount v least name).Trusted w := by
  unfold digitCount
  simp

@[simp] theorem trusted_newSymbol (description : Option String) : (newSymbol description).Trusted w :=
  trivial

@[simp] theorem trusted_descriptionOf : (descriptionOf v).Trusted w := by
  unfold descriptionOf
  simp

@[simp] theorem trusted_receiverSymbol : (receiverSymbol receiver name).Trusted w := by
  unfold receiverSymbol
  extract_lets rest
  have hrest : ∀ v, (rest v).Trusted w := by
    intro v
    simp only [rest]
    split <;> simp
  split <;> simp [hrest]

@[simp] theorem trusted_regexOf? : (regexOf? v).Trusted w := by
  unfold regexOf?
  split <;> simp

@[simp] theorem trusted_receiverRegex : (receiverRegex receiver name).Trusted w := by
  refine (trusted_regexOf? _).bind fun r _ => ?_
  split <;> simp

@[simp] theorem trusted_searchStart : (searchStart receiver).Trusted w := by
  unfold searchStart
  simp

@[simp] theorem trusted_execRegex (receiver : Value) (input : String) :
    (execRegex receiver input).Trusted w := by
  unfold execRegex
  simp

@[simp] theorem trusted_groupsOf (m : Regex.Match) : (groupsOf m).Trusted w := by
  unfold groupsOf
  simp

@[simp] theorem trusted_matchArray (m : Regex.Match) (input : String) : (matchArray m input).Trusted w := by
  refine (trusted_allocate _).bind fun id hid => (trusted_groupsOf m).bind fun groups _ => ?_
  exact Trusted.bind hid fun _ _ => trivial

@[simp] theorem trusted_sourceAndFlags : (sourceAndFlags v).Trusted w := by
  refine (trusted_regexOf? _).bind fun r _ => ?_
  cases r <;> simp

@[simp] theorem trusted_regexFromArguments (hr : w.Receives receiver) (args : Array Value) :
    (regexFromArguments receiver args).Trusted w := by
  refine (trusted_sourceAndFlags _).bind fun given _ => ?_
  obtain ⟨source, ownFlags⟩ := given
  dsimp -zeta only
  extract_lets second rest
  have hrest : ∀ flags, (rest flags).Trusted w := by
    intro flags
    refine (trusted_makeRegex _ _).bind fun r _ => trusted_constructing_bind hr fun target hfree => ?_
    cases target with
    | none => exact (trusted_allocate _).bind fun _ _ => trivial
    | some id => exact Trusted.bind (hfree id rfl) fun _ _ => trivial
  split <;> simp [hrest]

/-! ## 9. Texts -/

@[simp] theorem trusted_receiverText : (receiverText receiver name).Trusted w := by
  unfold receiverText
  simp

@[simp] theorem trusted_receiverString : (receiverString receiver name).Trusted w := by
  unfold receiverString
  cases receiver with
  | object id =>
    refine (trusted_object id).bind fun o _ => ?_
    split <;> simp
  | _ => simp

@[simp] theorem trusted_searchText : (searchText v name).Trusted w := by
  unfold searchText
  simp

@[simp] theorem trusted_placeArgument : (placeArgument v size).Trusted w := by
  unfold placeArgument
  simp

@[simp] theorem trusted_optionalPlace (size default : Nat) : (optionalPlace v size default).Trusted w := by
  unfold optionalPlace
  simp

@[simp] theorem trusted_patternRegex (flags : String) : (patternRegex v flags).Trusted w := by
  unfold patternRegex
  simp

@[simp] theorem trusted_pointToChar (x : Float) : (pointToChar x).Trusted w := by
  unfold pointToChar
  simp

@[simp] theorem trusted_interleave (values : Array Value) (acc : String) : (interleave values l i acc).Trusted w := by
  induction l generalizing i acc with
  | nil => trivial
  | cons v l ih =>
    unfold interleave
    split <;> simp +contextual [*]

@[simp] theorem trusted_padText (atStart : Bool) : (padText s args atStart).Trusted w := by
  unfold padText
  simp

@[simp] theorem trusted_repeatText (count : Float) : (repeatText s count).Trusted w := by
  unfold repeatText
  simp

@[simp] theorem trusted_normalizeText (form : Value) : (normalizeText s form).Trusted w := by
  unfold normalizeText
  simp

@[simp] theorem trusted_splitMatches (r : Regex) (s : Regex.Subject) (size limit fuel start place : Nat)
    (acc : List Regex.Match) (count : Nat) :
    (splitMatches r s size limit fuel start place acc count).Trusted w := by
  induction fuel generalizing start place acc count with
  | zero => trivial
  | succ fuel ih =>
    unfold splitMatches
    repeat' split
    all_goals simp +contextual [*]

@[simp] theorem trusted_splitByRegex (r : Regex) (limit : Nat) : (splitByRegex s r limit).Trusted w := by
  unfold splitByRegex
  simp

@[simp] theorem trusted_splitText (separator : Value) (limit : Nat) : (splitText s separator limit).Trusted w := by
  unfold splitText
  split
  · trivial
  · refine (trusted_regexOf? _).bind fun r _ => ?_
    cases r <;> simp

@[simp] theorem trusted_replacedMatches (all : Bool) : (replacedMatches s pattern all).Trusted w := by
  refine (trusted_regexOf? _).bind fun r _ => ?_
  cases r <;> simp

@[simp] theorem trusted_callReplacement (f : Value) (m : Regex.Match) : (callReplacement f m s).Trusted w := by
  unfold callReplacement
  simp

@[simp] theorem trusted_replaceFrom {replacement : Regex.Match → Eval String}
    (hr : ∀ m, (replacement m).Trusted w) (us : Array UInt16) (l : List Regex.Match) (start : Nat) (acc : String) :
    (replaceFrom us replacement l start acc).Trusted w := by
  induction l generalizing start acc with
  | nil => trivial
  | cons v l ih =>
    unfold replaceFrom
    simp [*]

@[simp] theorem trusted_replaceText (pattern replacement : Value) (all : Bool) :
    (replaceText s pattern replacement all).Trusted w := by
  unfold replaceText
  simp

@[simp] theorem trusted_matchText : (matchText s pattern).Trusted w := by
  refine (trusted_patternRegex _ _).bind fun regex _ => (trusted_regexOf? _).bind fun r _ => ?_
  cases r with
  | none => trivial
  | some r =>
    dsimp only
    split
    · simp
    · refine (trusted_execRegex _ _).bind fun m _ => ?_
      cases m <;> simp

@[simp] theorem trusted_requireGlobal : (requireGlobal pattern).Trusted w := by
  unfold requireGlobal
  simp

@[simp] theorem trusted_matchAllText : (matchAllText s pattern).Trusted w := by
  refine (trusted_requireGlobal _).bind fun _ _ => (trusted_patternRegex _ _).bind fun regex _ =>
    (trusted_regexOf? _).bind fun r _ => ?_
  cases r with
  | none => simp
  | some r => exact (trusted_mapM (fun m => trusted_matchArray m s) _).bind fun _ _ => trusted_newArray _

@[simp] theorem trusted_searchPlace : (searchPlace s pattern).Trusted w := by
  unfold searchPlace
  simp

end Eval

/-! ## 10. The functions -/

section

open Eval

variable {w : Watch}

@[simp] theorem ObjectMethod.trusted_run (method : ObjectMethod) (receiver : Value) (args : Array Value) :
    (method.run receiver args).Trusted w := by
  cases method with
  | make =>
    unfold ObjectMethod.run
    dsimp only
    split
    · refine (trusted_constructing? _).bind fun target _ => ?_
      cases target <;> simp
    · simp
  | assign =>
    refine (trusted_toObject _).bind fun target _ => (trusted_checkMutable target).bind fun _ _ => ?_
    exact (trusted_forM fun source _ => trusted_assignFrom target source).bind fun _ _ => trivial
  | freeze | preventExtensions =>
    unfold ObjectMethod.run
    dsimp only
    split
    · exact (trusted_checkMutable _).bind fun _ h => Trusted.bind (yields_checkMutable h) fun _ _ => trivial
    · trivial
  | isFrozen | isExtensible | defineProperty | defineProperties | isPrototypeOf =>
    unfold ObjectMethod.run
    dsimp only
    split <;> simp
  | setPrototypeOf =>
    unfold ObjectMethod.run
    dsimp only
    split
    · simp
    · refine (trusted_prototypeArgument _).bind fun prototype _ => ?_
      split <;> simp
  | getOwnPropertyDescriptor =>
    refine (trusted_toObject _).bind fun id _ => (trusted_toKey _).bind fun key _ =>
      (trusted_object id).bind fun o _ => ?_
    split <;> simp
  | _ => simp [ObjectMethod.run.eq_def]

@[simp] theorem ArrayMethod.trusted_change (method : ArrayMethod) : (method.change receiver args).Trusted w := by
  cases method <;> simp [ArrayMethod.change.eq_def]

@[simp] theorem ArrayMethod.trusted_iterate (method : ArrayMethod) (receiver : Value) (args : Array Value) :
    (method.iterate receiver args).Trusted w := by
  cases method <;> simp [ArrayMethod.iterate.eq_def]

@[simp] theorem ArrayMethod.trusted_access (method : ArrayMethod) : (method.access receiver args).Trusted w := by
  cases method with
  | lastIndexOf =>
    refine (trusted_elementsOf receiver).bind fun es _ => ?_
    split
    · trivial
    · refine (trusted_lastStart _ _).bind fun start _ => ?_
      cases start <;> simp
  | _ => simp [ArrayMethod.access.eq_def]

@[simp] theorem ArrayMethod.trusted_run (hr : w.Receives receiver) (method : ArrayMethod) (args : Array Value) :
    (method.run receiver args).Trusted w := by
  cases method with
  | make =>
    refine (trusted_constructorElements args).bind fun es _ => trusted_constructing_bind hr fun target hfree => ?_
    cases target with
    | none => simp
    | some id => exact Trusted.bind (hfree id rfl) fun _ _ => trivial
  | isArray =>
    unfold ArrayMethod.run
    dsimp only
    split <;> simp
  | _ => simp [ArrayMethod.run.eq_def]

@[simp] theorem CollectionMethod.trusted_run (kind : CollectionKind) (method : CollectionMethod)
    (receiver : Value) (args : Array Value) :
    (method.run kind receiver args).Trusted w := by
  refine (trusted_receiverCollection _ _ _).bind fun id h => ?_
  have hid := yields_receiverCollection h
  cases method <;> simp [hid]

@[simp] theorem DateMethod.trusted_run (hr : w.Receives receiver) (method : DateMethod) (args : Array Value) :
    (method.run receiver args).Trusted w := by
  cases method with
  | make =>
    refine trusted_constructing_bind hr fun target hfree => ?_
    cases target with
    | none => simp
    | some id => simp [hfree id rfl]
  | setTime =>
    refine (trusted_receiverTime receiver).bind fun _ h => (trusted_toNumber _).bind fun _ _ => ?_
    exact trusted_storeTime (yields_receiverTime h) _
  | toJSON =>
    refine (trusted_toPrimitive _ _).bind fun p _ => ?_
    extract_lets rest
    have hrest : ∀ hasText, (rest hasText).Trusted w := by simp [rest]
    split <;> simp [hrest]
  | _ => simp [DateMethod.run.eq_def]

@[simp] theorem FunctionMethod.trusted_run (method : FunctionMethod) (receiver : Value) (args : Array Value) :
    (method.run receiver args).Trusted w := by
  cases method with
  | apply =>
    unfold FunctionMethod.run
    dsimp only
    split <;> simp
  | bind =>
    refine (trusted_callable? _).bind fun c _ => ?_
    split <;> simp
  | toString =>
    refine (trusted_callable? _).bind fun c _ => ?_
    cases c <;> simp
  | _ => simp [FunctionMethod.run.eq_def]

@[simp] theorem GlobalMethod.trusted_run (method : GlobalMethod) (args : Array Value) :
    (method.run args).Trusted w := by
  cases method with
  | decodeURI | decodeURIComponent =>
    refine (trusted_toText _).bind fun s _ => ?_
    split <;> simp
  | _ => simp [GlobalMethod.run.eq_def]

@[simp] theorem JsonMethod.trusted_run (method : JsonMethod) (args : Array Value) :
    (method.run args).Trusted w := by
  cases method <;> simp [JsonMethod.run]

@[simp] theorem MathMethod.trusted_run (method : MathMethod) (args : Array Value) :
    (method.run args).Trusted w := by
  unfold MathMethod.run
  split
  · simp
  · split <;> simp

@[simp] theorem NumberMethod.trusted_run (hr : w.Receives receiver) (method : NumberMethod) (args : Array Value) :
    (method.run receiver args).Trusted w := by
  cases method with
  | make =>
    unfold NumberMethod.run
    extract_lets first rest
    have hrest : ∀ x, (rest x).Trusted w := by
      refine fun x => trusted_constructing_bind hr fun target hfree => ?_
      cases target with
      | none => trivial
      | some id => exact trusted_wrapInto (hfree id rfl) _ _
    dsimp only
    split <;> simp [hrest]
  | toExponential =>
    refine (trusted_receiverNumber _ _).bind fun x _ => ?_
    extract_lets rest
    have hrest : ∀ places, (rest places).Trusted w := by
      intro places
      cases places <;> simp [rest]
    split <;> simp [hrest]
  | _ => simp [NumberMethod.run.eq_def]

@[simp] theorem BooleanMethod.trusted_run (hr : w.Receives receiver) (method : BooleanMethod) (args : Array Value) :
    (method.run receiver args).Trusted w := by
  cases method with
  | make =>
    refine trusted_constructing_bind hr fun target hfree => ?_
    cases target with
    | none => trivial
    | some id => exact trusted_wrapInto (hfree id rfl) _ _
  | _ => simp [BooleanMethod.run]

@[simp] theorem RegexMethod.trusted_run (hr : w.Receives receiver) (method : RegexMethod) (args : Array Value) :
    (method.run receiver args).Trusted w := by
  cases method with
  | make => exact trusted_regexFromArguments hr args
  | exec =>
    refine (trusted_toText _).bind fun input _ => (trusted_execRegex _ _).bind fun m _ => ?_
    cases m <;> simp
  | _ => simp [RegexMethod.run.eq_def]

@[simp] theorem StringMethod.trusted_build (hr : w.Receives receiver) (method : StringMethod) :
    (method.build receiver args).Trusted w := by
  cases method with
  | fromCharCode | fromCodePoint | raw => simp [StringMethod.build.eq_def]
  | _ =>
    refine trusted_constructing_bind hr fun target hfree => ?_
    cases target with
    | none =>
      extract_lets given rest
      have hrest : ∀ s, (rest s).Trusted w := fun _ => trivial
      split <;> simp [hrest]
    | some id =>
      extract_lets given rest
      have hrest : ∀ s, (rest s).Trusted w := fun s => trusted_wrapInto (hfree id rfl) _ _
      split <;> simp [hrest]

@[simp] theorem StringMethod.trusted_look (method : StringMethod) : (method.look s args).Trusted w := by
  cases method <;> simp [StringMethod.look.eq_def]

@[simp] theorem StringMethod.trusted_transform (method : StringMethod) : (method.transform s args).Trusted w := by
  cases method with
  | concat =>
    refine (trusted_foldlM (fun acc v => ?_) _ _).bind fun _ _ => trivial
    exact (trusted_toText v).bind fun _ _ => trivial
  | _ => simp [StringMethod.transform.eq_def]

@[simp] theorem StringMethod.trusted_run (hr : w.Receives receiver) (method : StringMethod) (args : Array Value) :
    (method.run receiver args).Trusted w := by
  cases method <;> simp [StringMethod.run.eq_def, hr]

@[simp] theorem SymbolMethod.trusted_run (method : SymbolMethod) (receiver : Value) (args : Array Value) :
    (method.run receiver args).Trusted w := by
  cases method with
  | keyFor =>
    unfold SymbolMethod.run
    dsimp only
    split <;> simp
  | _ => simp [SymbolMethod.run.eq_def]

/-- **Every built-in function is trusted** with a receiver that it may set up. -/
theorem Builtin.trusted_run (hr : w.Receives receiver) (b : Builtin) (args : Array Value) :
    (b.run receiver args).Trusted w := by
  cases b <;> simp [Builtin.run.eq_def, hr]

end

end GuestScript
