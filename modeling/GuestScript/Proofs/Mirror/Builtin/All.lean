import GuestScript.Proofs.Mirror.Builtin.Collection
import GuestScript.Proofs.Mirror.Builtin.Json
import GuestScript.Proofs.Mirror.Builtin.Text

/-!
# All built-in functions on mirrors

The functions of dates, errors, functions, numbers and symbols do the same on both sides, and so does every built-in
function (`Builtin.tracks_run`).
-/

namespace GuestScript

variable {receiver v : Value} {args : Array Value} {id : ObjectId} {e : Embedding}

namespace Eval

/-! ## 1. Dates -/

theorem tracks_now : now.Tracks e now :=
  FollowsAs.clock.bind fun _ _ => .done trivial

theorem tracks_receiverTime (hreceiver : Within e receiver) :
    (receiverTime receiver).Tracks e (receiverTime (image e receiver)) := by
  have hrefuse : (throwTypeError "this is not a Date object." : Eval Float).Tracks e
      (throwTypeError "this is not a Date object.") := follows_throwTypeError _
  cases receiver with
  | object id =>
    refine (tracks_object (.inl hreceiver)).bind fun o _ => ?_
    rw [Object.sort_image, Object.primitive_image]
    cases o.sort with
    | date =>
      cases o.primitive with
      | none => exact hrefuse
      | some v => cases v with
        | number t => exact .done trivial
        | _ => exact hrefuse
    | _ => cases o.primitive <;> exact hrefuse
  | _ => exact hrefuse

theorem tracks_storeTime (hreceiver : Within e receiver) (t : Float) :
    (storeTime receiver t).Tracks e (storeTime (image e receiver) t) := by
  cases receiver with
  | object id =>
    have hstore : (modifyObject id fun o => { o with primitive := some (.number t) }).Tracks e
        (modifyObject (e.object id) fun o => { o with primitive := some (.number t) }) :=
      tracks_modifyObject hreceiver (.asked (.time t)) fun o ho =>
        have hslots : Within e { o with primitive := some (.number t) } :=
          { ho with primitive := within_some.mpr (Value.within_number t) }
        ⟨hslots, rfl⟩
    exact hstore.bind fun _ _ => .done trivial
  | _ => exact .done trivial

theorem image_floats (xs : Array Float) : image e xs = xs :=
  Array.map_id' xs

theorem image_floatList (xs : List Float) : image e xs = xs :=
  List.map_id' xs

theorem tracks_numbers {l : List Value} (hl : Within e l) :
    (l.mapM toNumber).Tracks e ((image e l).mapM toNumber) :=
  tracks_mapM hl fun _ hv => tracks_toNumber hv

theorem tracks_timeParts (hargs : Within e args) : (timeParts args).Tracks e (timeParts (image e args)) := by
  have htake : Within e (args.toList.take 7) := fun v hv => within_toList hargs v (List.mem_of_mem_take hv)
  have hnumbers := tracks_numbers htake
  rw [image_list, List.map_take] at hnumbers
  unfold timeParts
  rw [toList_image]
  refine hnumbers.bind fun given _ => ?_
  rw [image_floatList]
  exact Follows.ite Iff.rfl (fun _ => follows_pure (fun _ _ => trivial) (image_floats _).symm) fun _ =>
    follows_pure (fun _ _ => trivial) (image_floats _).symm

theorem tracks_timeOfPrimitive (hv : Within e v) :
    (do
      match ← toPrimitive v .default with
      | .string s => pure (Time.read s)
      | p => toNumber p : Eval Float).Tracks e
    (do
      match ← toPrimitive (image e v) .default with
      | .string s => pure (Time.read s)
      | p => toNumber p) := by
  refine (tracks_toPrimitive hv .default).bind fun p hp => ?_
  cases p with
  | string s => exact .done trivial
  | _ => exact tracks_toNumber hp

theorem tracks_timeOf (hv : Within e v) : (timeOf v).Tracks e (timeOf (image e v)) := by
  have hconvert := tracks_timeOfPrimitive hv
  cases v with
  | object id =>
    refine (tracks_object (.inl hv)).bind fun o _ => ?_
    rw [Object.sort_image, Object.primitive_image]
    cases o.sort with
    | date =>
      cases o.primitive with
      | none => exact hconvert
      | some w => cases w with
        | number t => exact .done trivial
        | _ => exact hconvert
    | _ => cases o.primitive <;> exact hconvert
  | _ => exact hconvert

theorem tracks_constructorTime (hargs : Within e args) :
    (constructorTime args).Tracks e (constructorTime (image e args)) := by
  have hparts := tracks_timeParts hargs
  have hlist := within_toList hargs
  unfold constructorTime
  rw [toList_image]
  generalize args.toList = l at hlist ⊢
  cases l with
  | nil => exact tracks_now
  | cons v l =>
    cases l with
    | nil => exact tracks_timeOf (within_cons.mp hlist).1
    | cons w l => exact hparts.bind fun parts _ => follows_pure trivial (by rw [image_floats]; rfl)

theorem tracks_writeParts {args : Array Value} (hargs : Within e args) (field : Nat) :
    ∀ (count i : Nat) (parts : Array Float),
      (writeParts args field count i parts).Tracks e (writeParts (image e args) field count i parts)
  | 0, _, parts => follows_pure (fun _ _ => trivial) (image_floats parts).symm
  | count + 1, i, parts => by
    unfold writeParts
    rw [argument_image]
    exact (tracks_toNumber (within_argument hargs i)).bind fun x _ => tracks_writeParts hargs field count (i + 1) _

theorem tracks_writeTime (hreceiver : Within e receiver) (hargs : Within e args) (field : DateField) :
    (writeTime receiver args field).Tracks e (writeTime (image e receiver) (image e args) field) := by
  refine (tracks_receiverTime hreceiver).bind fun t _ => Follows.ite Iff.rfl (fun _ => .done trivial) fun _ => ?_
  rw [size_image]
  refine (tracks_writeParts hargs _ _ 0 _).bind fun parts _ => ?_
  rw [image_floats]
  exact tracks_storeTime hreceiver _

theorem tracks_timeText (hreceiver : Within e receiver) (render : Time.Parts → String) :
    (timeText receiver render).Tracks e (timeText (image e receiver) render) :=
  (tracks_receiverTime hreceiver).bind fun _ _ => .done trivial

end Eval

open Eval in
/-- The functions of `Date` do the same on mirrors. -/
theorem DateMethod.tracks_run (method : DateMethod) (hreceiver : Within e receiver) (hargs : Within e args) :
    (method.run receiver args).Tracks e (method.run (image e receiver) (image e args)) := by
  have hfirst := within_argument hargs 0
  have htime := tracks_receiverTime hreceiver
  unfold DateMethod.run
  rw [argument_image]
  cases method with
  | make =>
    refine (tracks_constructing? hreceiver).bind fun target htarget => ?_
    cases target with
    | none => exact tracks_now.bind fun _ _ => .done trivial
    | some id =>
      refine (tracks_constructorTime hargs).bind fun t _ => ?_
      exact tracks_wrapInto (within_some.mp htarget) .date (Value.within_number _)
  | now => exact tracks_now.bind fun _ _ => .done trivial
  | parse => exact (tracks_toText hfirst).bind fun _ _ => .done trivial
  | utc => exact (tracks_timeParts hargs).bind fun parts _ => follows_pure trivial (by rw [image_floats]; rfl)
  | read field _ => exact htime.bind fun t _ => Follows.ite Iff.rfl (fun _ => .done trivial) fun _ => .done trivial
  | write field _ => exact tracks_writeTime hreceiver hargs field
  | getTime | valueOf => exact htime.bind fun _ _ => .done trivial
  | setTime =>
    exact htime.bind fun _ _ => (tracks_toNumber hfirst).bind fun _ _ => tracks_storeTime hreceiver _
  | getTimezoneOffset => exact htime.bind fun _ _ => .done trivial
  | toISOString =>
    exact htime.bind fun t _ => Follows.ite Iff.rfl (fun _ => follows_throwFault _ _) fun _ => .done trivial
  | toJSON =>
    refine (tracks_toPrimitive hreceiver .number).bind fun p _ => ?_
    have hlast (hasText : Bool) : (if hasText then do call (← getNamed receiver "toISOString") receiver #[]
          else pure .null : Eval Value).Tracks e
        (if hasText then do call (← getNamed (image e receiver) "toISOString") (image e receiver) #[]
          else pure .null) :=
      Follows.ite Iff.rfl
        (fun _ => (tracks_getNamed hreceiver "toISOString").bind fun f hf =>
          tracks_call hf hreceiver within_empty (by simp))
        fun _ => .done trivial
    cases p <;> exact (tracks_pure trivial).bind fun hasText _ => hlast hasText
  | _ => exact tracks_timeText hreceiver _

namespace Eval

/-! ## 2. Errors -/

theorem tracks_textField (hv : Within e v) (name absent : String) :
    (textField v name absent).Tracks e (textField (image e v) name absent) :=
  (tracks_getNamed hv name).bind fun _ hfield =>
    Follows.ite (by rw [Value.isUndefined_image]) (fun _ => .done trivial) fun _ => tracks_toText hfield

theorem tracks_errorText (hv : Within e v) : (errorText v).Tracks e (errorText (image e v)) :=
  Follows.ite (by rw [Value.isObject_image])
    (fun _ => (tracks_textField hv _ _).bind fun _ _ => (tracks_textField hv _ _).bind fun _ _ => .done trivial)
    fun _ => follows_throwTypeError _

theorem tracks_setMessage (hid : e.Open id) {message : Value} (hmessage : Within e message) :
    (setMessage id message).Tracks e (setMessage (e.object id) (image e message)) :=
  Follows.ite (by rw [Value.isUndefined_image])
    (fun _ => (tracks_toText hmessage).bind fun text _ =>
      tracks_insertHidden hid "message" (Value.within_string text))
    fun _ => tracks_unit

theorem tracks_setCause (hid : e.Open id) {options : Value} (hoptions : Within e options) :
    (setCause id options).Tracks e (setCause (e.object id) (image e options)) := by
  cases options with
  | object options =>
    refine (tracks_hasProperty (.inl hoptions) (.string "cause")).bind fun _ _ => ?_
    refine Follows.ite Iff.rfl (fun _ => ?_) fun _ => tracks_unit
    exact (tracks_getNamed hoptions "cause").bind fun cause hcause => tracks_insertHidden hid "cause" hcause
  | _ => exact tracks_unit

theorem tracks_fillError (hid : e.Open id) (hargs : Within e args) :
    (fillError id args).Tracks e (fillError (e.object id) (image e args)) := by
  have hsort : (modifyObject id fun o => { o with sort := .error }).Tracks e
      (modifyObject (e.object id) fun o => { o with sort := .error }) :=
    tracks_modifyObject hid (Object.SetUp.become _ fun _ => ⟨_, _, _, _, _, rfl, fun h => h⟩).written fun o ho =>
      have hslots : Within e { o with sort := .error } := { ho with }
      ⟨hslots, rfl⟩
  have htrace : (read fun m => traceLines m.callStack).Tracks e (read fun m => traceLines m.callStack) :=
    .read fun s s' h => ⟨trivial, by rw [image_string, Registers.callStack, Registers.callStack, h.calls]⟩
  unfold fillError
  rw [argument_image, argument_image]
  refine hsort.bind fun _ _ => (tracks_setMessage hid (within_argument hargs 0)).bind fun _ _ => ?_
  refine (tracks_setCause hid (within_argument hargs 1)).bind fun _ _ => ?_
  refine (tracks_errorText (Value.within_object hid)).bind fun head _ => htrace.bind fun trace _ => ?_
  exact (tracks_insertHidden hid "stack" (Value.within_string _)).bind fun _ _ => .done (Value.within_object hid)

theorem tracks_makeError (kind : ErrorKind) (hreceiver : Within e receiver) (hargs : Within e args) :
    (makeError kind receiver args).Tracks e (makeError kind (image e receiver) (image e args)) := by
  refine (tracks_constructing? hreceiver).bind fun target htarget => ?_
  cases target with
  | some id => exact tracks_fillError (within_some.mp htarget) hargs
  | none =>
    have hnew := tracks_newObject (within_intrinsic (e := e) (.errorPrototype kind))
    rw [image_some, image_objectId, object_intrinsic] at hnew
    exact hnew.bind fun id hid => tracks_fillError hid hargs

/-! ## 3. Numbers, truth values and symbols -/

theorem tracks_receiverNumber (hreceiver : Within e receiver) (name : String) :
    (receiverNumber receiver name).Tracks e (receiverNumber (image e receiver) name) := by
  refine (tracks_wrapped? hreceiver .number).bind fun v _ => ?_
  rcases v with _ | v
  · exact follows_throwTypeError _
  · cases v with
    | number x => exact .done trivial
    | _ => exact follows_throwTypeError _

theorem tracks_receiverBoolean (hreceiver : Within e receiver) (name : String) :
    (receiverBoolean receiver name).Tracks e (receiverBoolean (image e receiver) name) := by
  refine (tracks_wrapped? hreceiver .boolean).bind fun v _ => ?_
  rcases v with _ | v
  · exact follows_throwTypeError _
  · cases v with
    | boolean b => exact .done trivial
    | _ => exact follows_throwTypeError _

theorem tracks_digitCount (hv : Within e v) (least : Nat) (name : String) :
    (digitCount v least name).Tracks e (digitCount (image e v) least name) :=
  (tracks_toInteger hv).bind fun _ _ => Follows.ite Iff.rfl (fun _ => .done trivial) fun _ => follows_throwFault _ _

theorem tracks_newSymbol (description : Option String) : (newSymbol description).Tracks e (newSymbol description) :=
  .update (.newSymbol description)

theorem tracks_descriptionOf (hv : Within e v) :
    (descriptionOf v).Follows e (fun _ => True) (fun text => text) (descriptionOf (image e v)) :=
  Follows.ite (by rw [Value.isUndefined_image]) (fun _ => .done trivial) fun _ =>
    (tracks_toText hv).map fun _ _ => ⟨trivial, rfl⟩

theorem tracks_symbolAmong (found : Option Value) (name : String) :
    (match found with
      | some (.symbol s) => pure s
      | _ => throwTypeError ("Symbol.prototype." ++ name ++ " requires that 'this' be a Symbol") : Eval Symbol).Tracks e
    (match image e found with
      | some (.symbol s) => pure s
      | _ => throwTypeError ("Symbol.prototype." ++ name ++ " requires that 'this' be a Symbol")) := by
  rcases found with _ | v
  · exact follows_throwTypeError _
  · cases v with
    | symbol s => exact .done trivial
    | _ => exact follows_throwTypeError _

theorem tracks_receiverSymbol (hreceiver : Within e receiver) (name : String) :
    (receiverSymbol receiver name).Tracks e (receiverSymbol (image e receiver) name) := by
  have hlast (found : Option Value) := tracks_symbolAmong (e := e) found name
  cases receiver with
  | object id =>
    exact (tracks_object (.inl hreceiver)).bind fun o ho => (tracks_pure ho.primitive).bind fun found _ => hlast found
  | _ => exact (tracks_pure (within_some.mpr hreceiver)).bind fun found _ => hlast found

/-- `Number` as a function and as a constructor. -/
theorem tracks_newNumber (hreceiver : Within e receiver) (x : Float) :
    (do
      match ← constructing? receiver with
      | some id => wrapInto id .number (.number x)
      | none => pure (.number x) : Eval Value).Tracks e
    (do
      match ← constructing? (image e receiver) with
      | some id => wrapInto id .number (.number x)
      | none => pure (.number x)) := by
  refine (tracks_constructing? hreceiver).bind fun target htarget => ?_
  cases target with
  | none => exact .done trivial
  | some id => exact tracks_wrapInto (within_some.mp htarget) .number (Value.within_number x)

theorem tracks_exponential (x : Float) (places : Option Float) :
    (if !x.isFinite then pure (.string (Number.text x))
      else
        match places with
        | none => pure (.string (Number.exponentialText x none))
        | some p =>
          if 0.0 ≤ p && p ≤ 100.0 then
            pure (.string (Number.exponentialText x (some (Number.toNatural64 p))))
          else throwFault .rangeError "toExponential() argument must be between 0 and 100" : Eval Value).Tracks e
    (if !x.isFinite then pure (.string (Number.text x))
      else
        match places with
        | none => pure (.string (Number.exponentialText x none))
        | some p =>
          if 0.0 ≤ p && p ≤ 100.0 then
            pure (.string (Number.exponentialText x (some (Number.toNatural64 p))))
          else throwFault .rangeError "toExponential() argument must be between 0 and 100") := by
  refine Follows.ite Iff.rfl (fun _ => .done trivial) fun _ => ?_
  cases places with
  | none => exact .done trivial
  | some p => exact Follows.ite Iff.rfl (fun _ => .done trivial) fun _ => follows_throwFault _ _

end Eval

open Eval in
/-- The functions of `Number` do the same on mirrors. -/
theorem NumberMethod.tracks_run (method : NumberMethod) (hreceiver : Within e receiver) (hargs : Within e args) :
    (method.run receiver args).Tracks e (method.run (image e receiver) (image e args)) := by
  have hfirst := within_argument hargs 0
  have hnumber (name : String) := tracks_receiverNumber hreceiver name
  unfold NumberMethod.run
  rw [argument_image]
  cases method with
  | make =>
    have hmake (x : Float) := tracks_newNumber hreceiver x
    refine Follows.ite (by rw [isEmpty_image]) (fun _ => ?_) fun _ => ?_
    · exact (tracks_pure trivial).bind fun x _ => hmake x
    · exact (tracks_toNumber hfirst).bind fun x _ => hmake x
  | isFinite | isNaN | isInteger | isSafeInteger =>
    generalize argument args 0 = first
    cases first <;> exact .done trivial
  | toString =>
    refine (hnumber "toString").bind fun x _ => ?_
    have htext (radix : Float) : (if 2.0 ≤ radix && radix ≤ 36.0 then
          pure (.string (Number.radixText x (Number.toNatural64 radix)))
        else throwFault .rangeError "toString() radix must be between 2 and 36" : Eval Value).Tracks e
        (if 2.0 ≤ radix && radix ≤ 36.0 then pure (.string (Number.radixText x (Number.toNatural64 radix)))
        else throwFault .rangeError "toString() radix must be between 2 and 36") :=
      Follows.ite Iff.rfl (fun _ => .done trivial) fun _ => follows_throwFault _ _
    refine Follows.ite (by rw [Value.isUndefined_image]) (fun _ => ?_) fun _ => ?_
    · exact (tracks_pure trivial).bind fun radix _ => htext radix
    · exact (tracks_toInteger hfirst).bind fun radix _ => htext radix
  | toLocaleString => exact (hnumber _).bind fun _ _ => .done trivial
  | valueOf => exact (hnumber _).bind fun _ _ => .done trivial
  | toFixed =>
    exact (hnumber _).bind fun _ _ => (tracks_digitCount hfirst 0 _).bind fun _ _ => .done trivial
  | toExponential =>
    refine (hnumber "toExponential").bind fun x _ => ?_
    have htext (places : Option Float) := tracks_exponential (e := e) x places
    refine Follows.ite (by rw [Value.isUndefined_image]) (fun _ => ?_) fun _ => ?_
    · exact Follows.bind (P := fun _ => True) (g := fun places => places) (.done trivial) fun places _ => htext places
    · refine Follows.bind (P := fun _ => True) (g := fun places => places) ?_ fun places _ => htext places
      exact (tracks_toInteger hfirst).map fun _ _ => ⟨trivial, rfl⟩
  | toPrecision =>
    refine (hnumber "toPrecision").bind fun x _ => ?_
    refine Follows.ite (by rw [Value.isUndefined_image]; rfl) (fun _ => .done trivial) fun _ => ?_
    exact (tracks_digitCount hfirst 1 _).bind fun _ _ => .done trivial

open Eval in
/-- The functions of `Boolean` do the same on mirrors. -/
theorem BooleanMethod.tracks_run (method : BooleanMethod) (hreceiver : Within e receiver) (args : Array Value) :
    (method.run receiver args).Tracks e (method.run (image e receiver) (image e args)) := by
  cases method with
  | make =>
    unfold BooleanMethod.run
    rw [argument_image, Value.truthy_image]
    refine (tracks_constructing? hreceiver).bind fun target htarget => ?_
    cases target with
    | none => exact .done trivial
    | some id => exact tracks_wrapInto (within_some.mp htarget) .boolean trivial
  | toString => exact (tracks_receiverBoolean hreceiver _).bind fun _ _ => .done trivial
  | valueOf => exact (tracks_receiverBoolean hreceiver _).bind fun _ _ => .done trivial

open Eval in
/-- The functions of `Symbol` do the same on mirrors. -/
theorem SymbolMethod.tracks_run (method : SymbolMethod) (hreceiver : Within e receiver) (hargs : Within e args) :
    (method.run receiver args).Tracks e (method.run (image e receiver) (image e args)) := by
  have hfirst := within_argument hargs 0
  have hsymbol (name : String) := tracks_receiverSymbol hreceiver name
  unfold SymbolMethod.run
  rw [argument_image]
  cases method with
  | make =>
    refine (tracks_constructing? hreceiver).bind fun target _ => ?_
    refine Follows.ite (by rw [isSome_image]) (fun _ => follows_throwTypeError _) fun _ => ?_
    exact (tracks_descriptionOf hfirst).bind fun description _ => (tracks_newSymbol description).bind fun _ _ => .done trivial
  | registered => exact (tracks_toText hfirst).bind fun _ _ => .done trivial
  | keyFor =>
    generalize argument args 0 = first
    cases first with
    | symbol s =>
      cases s with
      | registered name => exact .done trivial
      | _ => exact .done trivial
    | _ => exact follows_throwTypeError _
  | toString => exact (hsymbol _).bind fun s _ => follows_pure trivial (congrArg Value.string s.text_image)
  | valueOf => exact (hsymbol _).bind fun _ _ => .done trivial
  | description =>
    refine (hsymbol _).bind fun s _ => ?_
    have hsame : (image e s).description? = s.description? := by cases s <;> rfl
    rw [hsame]
    exact tracks_fixed (fixed_ofText? _)

open Eval in
/-- The functions of `Math` do the same on mirrors. -/
theorem MathMethod.tracks_run (method : MathMethod) (hargs : Within e args) :
    (method.run args).Tracks e (method.run (image e args)) := by
  have hfirst := tracks_toNumber (within_argument hargs 0)
  have hsecond := tracks_toNumber (within_argument hargs 1)
  have hall := tracks_numbers (within_toList hargs)
  unfold MathMethod.run
  rw [argument_image, argument_image, toList_image]
  cases method.unary? with
  | some f => exact hfirst.bind fun _ _ => .done trivial
  | none =>
    cases method with
    | max | min | hypot =>
      refine hall.bind fun xs _ => ?_
      rw [image_floatList]
      exact .done trivial
    | random => exact FollowsAs.counted.bind fun _ _ => .done trivial
    | _ => exact hfirst.bind fun _ _ => hsecond.bind fun _ _ => .done trivial

/-! ## 4. Functions and global functions -/

open Eval in
/-- What all functions inherit does the same on mirrors. -/
theorem FunctionMethod.tracks_run (method : FunctionMethod) (hreceiver : Within e receiver) (hargs : Within e args) :
    (method.run receiver args).Tracks e (method.run (image e receiver) (image e args)) := by
  have hfirst := within_argument hargs 0
  have hsecond := within_argument hargs 1
  unfold FunctionMethod.run
  rw [argument_image, argument_image, size_image, extract_image]
  cases method with
  | nothing => exact .done trivial
  | call => exact tracks_call hreceiver hfirst (within_extract hargs _ _) rfl
  | apply =>
    have hcall (list : Array Value) (hlist : Within e list) : (Eval.call receiver (argument args 0) list).Tracks e
        (Eval.call (image e receiver) (image e (argument args 0)) (image e list)) :=
      tracks_call hreceiver hfirst hlist rfl
    generalize argument args 1 = second at hsecond ⊢
    cases second with
    | undefined | null =>
      exact Follows.bind (P := Within e) (g := image e) (follows_pure within_empty image_emptyArray.symm) hcall
    | object id => exact (tracks_listOf hsecond).bind hcall
    | _ => exact Follows.bind (P := Within e) (g := image e) (follows_throwTypeError _) hcall
  | bind =>
    refine (tracks_callable? hreceiver).bind fun c hc => ?_
    cases receiver with
    | object id =>
      cases c with
      | none => exact follows_throwTypeError _
      | some c =>
        have hbound : Within e (Callable.bound id (argument args 0) (args.extract 1 args.size) c.name c.arity
            c.isConstructor) := ⟨hreceiver, hfirst, within_extract hargs _ _⟩
        dsimp only [Value.image_object, image_some]
        rw [Callable.name_image, Callable.arity_image, Callable.isConstructor_image]
        exact (tracks_newFunction hbound).bind fun id hid => .done (Value.within_object hid)
    | _ => cases c <;> exact follows_throwTypeError _
  | toString =>
    refine (tracks_callable? hreceiver).bind fun c hc => ?_
    cases c with
    | none => exact follows_throwTypeError _
    | some c => exact follows_pure trivial (congrArg Value.string c.sourceText_image)

open Eval in
/-- The global functions do the same on mirrors. -/
theorem GlobalMethod.tracks_run (method : GlobalMethod) (hargs : Within e args) :
    (method.run args).Tracks e (method.run (image e args)) := by
  have htext := tracks_toText (within_argument hargs 0)
  have hnumber := tracks_toNumber (within_argument hargs 0)
  unfold GlobalMethod.run
  rw [argument_image, argument_image]
  cases method with
  | parseInt =>
    exact htext.bind fun _ _ => (tracks_toNumber (within_argument hargs 1)).bind fun _ _ => .done trivial
  | decodeURI | decodeURIComponent =>
    refine htext.bind fun text _ => ?_
    rw [image_string]
    split
    · exact .done trivial
    · exact follows_throwFault _ _
  | isNaN | isFinite => exact hnumber.bind fun _ _ => .done trivial
  | _ => exact htext.bind fun _ _ => .done trivial

/-! ## 5. All built-in functions -/

/-- **Every built-in function does the same on mirrors.** -/
theorem Builtin.tracks_run (b : Builtin) (hreceiver : Within e receiver) (hargs : Within e args) :
    (b.run receiver args).Tracks e (b.run (image e receiver) (image e args)) := by
  cases b with
  | object method => exact method.tracks_run hreceiver hargs
  | function method => exact method.tracks_run hreceiver hargs
  | array method => exact method.tracks_run hreceiver hargs
  | string method => exact method.tracks_run hreceiver hargs
  | number method => exact method.tracks_run hreceiver hargs
  | boolean method => exact method.tracks_run hreceiver args
  | symbol method => exact method.tracks_run hreceiver hargs
  | math method => exact method.tracks_run hargs
  | json method => exact method.tracks_run hargs
  | date method => exact method.tracks_run hreceiver hargs
  | regex method => exact method.tracks_run hreceiver hargs
  | global method => exact method.tracks_run hargs
  | makeCollection kind => exact Eval.tracks_makeCollection kind hreceiver hargs
  | collection kind method => exact method.tracks_run kind hreceiver hargs
  | makeError kind => exact Eval.tracks_makeError kind hreceiver hargs
  | errorToString => exact (Eval.tracks_errorText hreceiver).bind fun _ _ => .done trivial

end GuestScript
