import GuestScript.Proofs.Mirror.Builtin.Object

/-!
# Functions of texts on mirrors

The functions of `RegExp` and `String` do the same on both sides. Most of what they work on holds no address and stays
as it is (`Fixed`).
-/

namespace GuestScript

variable {l args : Array Value} {v receiver pattern : Value} (method : StringMethod) (s : String) {e : Embedding}

/-! ## 1. What is not moved -/

/-- Whether an embedding leaves something as it is. -/
def Fixed (e : Embedding) {α : Type} [Carried α] (a : α) : Prop :=
  Within e a ∧ image e a = a

theorem fixed_string : Fixed e (Value.string s) :=
  ⟨trivial, rfl⟩

theorem fixed_ofText? (text : Option String) : Fixed e (Value.ofText? text) :=
  ⟨Eval.within_ofText? text, Eval.image_ofText? text⟩

theorem fixed_array (h : ∀ v ∈ l, Fixed e v) : Fixed e l := by
  refine ⟨fun v hv => (h v hv).1, ?_⟩
  rw [image_array]
  exact (Array.map_congr_left fun v hv => (h v hv).2).trans (Array.map_id' l)

theorem fixed_texts (texts : Array (Option String)) : Fixed e (texts.map Value.ofText?) :=
  fixed_array fun v hv => by
    obtain ⟨text, -, rfl⟩ := Array.mem_map.mp hv
    exact fixed_ofText? text

theorem fixed_append {l' : Array Value} (h : Fixed e l) (h' : Fixed e l') : Fixed e (l ++ l') :=
  ⟨within_appendArray h.1 h'.1, by rw [← append_image, h.2, h'.2]⟩

namespace Eval

variable {α : Type} {P : α → Prop} {g : α → α}

theorem tracks_fixed [Carried α] {a : α} (ha : Fixed e a) : (pure a : Eval α).Tracks e (pure a) :=
  follows_pure ha.1 ha.2.symm

theorem tracks_fixedArray (h : Fixed e l) : (newArray l).Tracks e (newArray l) := by
  have htracks := tracks_newArray h.1
  rwa [h.2] at htracks

/-! ## 2. Regular expressions -/

theorem image_regex? (r : Option Regex) : image e r = r := by
  cases r <;> rfl

theorem tracks_sourceAndFlags (hv : Within e v) : (sourceAndFlags v).Tracks e (sourceAndFlags (image e v)) := by
  refine (tracks_regexOf? hv).bind fun r _ => ?_
  cases r with
  | some r => exact .done ⟨trivial, trivial⟩
  | none =>
    refine Follows.ite (by rw [Value.isUndefined_image]) (fun _ => .done ⟨trivial, trivial⟩) fun _ => ?_
    exact (tracks_toText hv).bind fun _ _ => .done ⟨trivial, trivial⟩

/-- An expression is put into the object that is being constructed, or into one of its own. -/
theorem tracks_placeRegex (hreceiver : Within e receiver) (source flags : String) :
    (do
      let r ← makeRegex source flags
      match ← constructing? receiver with
      | some id =>
        modifyObject id fun o => regexInto o r
        pure (.object id)
      | none => return .object (← allocate (regexInto { prototype := some Intrinsic.regexPrototype.id } r)) :
        Eval Value).Tracks e
    (do
      let r ← makeRegex source flags
      match ← constructing? (image e receiver) with
      | some id =>
        modifyObject id fun o => regexInto o r
        pure (.object id)
      | none => return .object (← allocate (regexInto { prototype := some Intrinsic.regexPrototype.id } r))) := by
  refine (tracks_makeRegex source flags).bind fun r _ => (tracks_constructing? hreceiver).bind fun target htarget => ?_
  cases target with
  | some id =>
    have hid : e.Open id := within_some.mp htarget
    have hinto : Object.SetUp fun o => regexInto o r :=
      .andThen (.become .regex fun _ => ⟨_, _, _, _, _, rfl, fun h => h⟩) (.insert "lastIndex" _)
    have hfill : (modifyObject id fun o => regexInto o r).Tracks e
        (modifyObject (e.object id) fun o => regexInto o r) :=
      tracks_modifyObject hid hinto.written fun o ho => ⟨within_regexInto ho r, image_regexInto o r⟩
    exact hfill.bind fun _ _ => .done (Value.within_object hid)
  | none =>
    exact (tracks_allocateRegex r).bind fun id hid => .done (Value.within_object hid)

theorem tracks_regexFromArguments (hreceiver : Within e receiver) (hargs : Within e args) :
    (regexFromArguments receiver args).Tracks e (regexFromArguments (image e receiver) (image e args)) := by
  have hmake (source flags : String) := tracks_placeRegex hreceiver source flags
  unfold regexFromArguments
  rw [argument_image, argument_image]
  refine (tracks_sourceAndFlags (within_argument hargs 0)).bind fun parts _ => ?_
  refine Follows.ite (by rw [Value.isUndefined_image]) (fun _ => ?_) fun _ => ?_
  · exact (tracks_pure trivial).bind fun flags _ => hmake parts.1 flags
  · exact (tracks_toText (within_argument hargs 1)).bind fun flags _ => hmake parts.1 flags

theorem tracks_receiverText (hreceiver : Within e receiver) (name : String) :
    (receiverText receiver name).Tracks e (receiverText (image e receiver) name) :=
  Follows.ite (by rw [Value.isNullish_image]) (fun _ => follows_throwTypeError _) fun _ => tracks_toText hreceiver

end Eval

open Eval in
/-- The functions of `RegExp` do the same on mirrors. -/
theorem RegexMethod.tracks_run (method : RegexMethod) (hreceiver : Within e receiver) (hargs : Within e args) :
    (method.run receiver args).Tracks e (method.run (image e receiver) (image e args)) := by
  have hinput := tracks_toText (within_argument hargs 0)
  rw [← argument_image] at hinput
  cases method with
  | make => exact tracks_regexFromArguments hreceiver hargs
  | exec =>
    refine hinput.bind fun input _ => (tracks_execRegex hreceiver input).bind fun found _ => ?_
    cases found with
    | some m => exact tracks_matchArray m input
    | none => exact .done trivial
  | test =>
    refine hinput.bind fun input _ => (tracks_execRegex hreceiver input).bind fun found _ => ?_
    exact follows_pure trivial (by rw [isSome_image]; rfl)
  | toString =>
    refine (tracks_getNamed hreceiver "source").bind fun source hsource => (tracks_display hsource).bind fun _ _ => ?_
    refine (tracks_getNamed hreceiver "flags").bind fun flags hflags => (tracks_display hflags).bind fun _ _ => ?_
    exact .done trivial
  | source => exact (tracks_receiverRegex hreceiver "source").bind fun _ _ => .done trivial
  | flags => exact (tracks_receiverRegex hreceiver "flags").bind fun _ _ => .done trivial
  | _ => exact (tracks_receiverRegex hreceiver _).bind fun _ _ => .done trivial

namespace Eval

variable {α : Type} {P : α → Prop} {g : α → α}

/-! ## 3. Arguments of text functions -/

theorem tracks_receiverString (hreceiver : Within e receiver) (name : String) :
    (receiverString receiver name).Tracks e (receiverString (image e receiver) name) := by
  have hrefuse : (throwTypeError ("String.prototype." ++ name ++ " requires that 'this' be a String") :
        Eval Value).Tracks e
      (throwTypeError ("String.prototype." ++ name ++ " requires that 'this' be a String")) :=
    follows_throwTypeError _
  cases receiver with
  | string s => exact .done trivial
  | object id =>
    refine (tracks_object (.inl hreceiver)).bind fun o _ => ?_
    rw [Object.primitive_image]
    cases o.primitive with
    | none => exact hrefuse
    | some v =>
      cases v with
      | string s => exact .done trivial
      | _ => exact hrefuse
  | _ => exact hrefuse

theorem tracks_searchText (hv : Within e v) (name : String) :
    (searchText v name).Tracks e (searchText (image e v) name) :=
  (tracks_regexOf? hv).bind fun _ _ =>
    Follows.ite (by rw [isSome_image]) (fun _ => follows_throwTypeError _) fun _ => tracks_toText hv

theorem tracks_placeArgument (hv : Within e v) (size : Nat) :
    (placeArgument v size).Tracks e (placeArgument (image e v) size) :=
  (tracks_toInteger hv).bind fun _ _ => .done trivial

theorem tracks_optionalPlace (hv : Within e v) (size default : Nat) :
    (optionalPlace v size default).Tracks e (optionalPlace (image e v) size default) :=
  Follows.ite (by rw [Value.isUndefined_image]) (fun _ => .done trivial) fun _ => tracks_placeArgument hv size

theorem fixed_placeOrMinusOne (i : Option Nat) : Fixed e (placeOrMinusOne i) := by
  cases i <;> exact ⟨trivial, rfl⟩

theorem tracks_patternRegex (hv : Within e v) (flags : String) :
    (patternRegex v flags).Tracks e (patternRegex (image e v) flags) := by
  refine (tracks_regexOf? hv).bind fun r _ => Follows.ite (by rw [isSome_image]) (fun _ => .done hv) fun _ => ?_
  refine Follows.ite (by rw [Value.isUndefined_image]) (fun _ => ?_) fun _ => ?_
  · exact (tracks_pure trivial).bind fun source _ => tracks_newRegex source flags
  · exact (tracks_toText hv).bind fun source _ => tracks_newRegex source flags

/-! ## 4. Making texts -/

theorem tracks_pointToChar (x : Float) : (pointToChar x).Tracks e (pointToChar x) :=
  Follows.ite Iff.rfl (fun _ => .done trivial) fun _ => follows_throwFault _ _

theorem tracks_interleave {values : Array Value} (hvalues : Within e values) :
    ∀ {l : List Value} (i : Nat) (acc : String), Within e l →
      (interleave values l i acc).Tracks e (interleave (image e values) (image e l) i acc)
  | [], _, _, _ => .done trivial
  | piece :: l, i, acc, hl => by
    have hgiven := within_getElem? hvalues (i + 1)
    have hrest := fun text => tracks_interleave hvalues (i + 1) text (within_cons.mp hl).2
    refine (tracks_toText (within_cons.mp hl).1).bind fun text _ => ?_
    have hempty : (l.map (image e)).isEmpty = l.isEmpty := List.isEmpty_map
    dsimp only
    rw [hempty, getElem?_image]
    cases l.isEmpty with
    | true => exact hrest _
    | false =>
      cases hv : values[i + 1]? with
      | none => exact hrest _
      | some v => exact (tracks_toText (hgiven v hv)).bind fun text _ => hrest _

theorem tracks_padText (hargs : Within e args) (atStart : Bool) :
    (padText s args atStart).Tracks e (padText s (image e args) atStart) := by
  have hpad (target : Float) (fill : String) : (
        let size := Text.size s
        if target ≤ Number.ofNat size || fill.isEmpty then pure (.string s)
        else if target > Text.lengthLimit then throwFault .rangeError "Invalid string length"
        else
          let padding := Text.cycle fill (Number.toNatural64 target - size)
          pure (.string (if atStart then padding ++ s else s ++ padding)) : Eval Value).Tracks e
      (
        let size := Text.size s
        if target ≤ Number.ofNat size || fill.isEmpty then pure (.string s)
        else if target > Text.lengthLimit then throwFault .rangeError "Invalid string length"
        else
          let padding := Text.cycle fill (Number.toNatural64 target - size)
          pure (.string (if atStart then padding ++ s else s ++ padding))) :=
    Follows.ite Iff.rfl (fun _ => .done trivial) fun _ =>
      Follows.ite Iff.rfl (fun _ => follows_throwFault _ _) fun _ => .done trivial
  unfold padText
  rw [argument_image, argument_image]
  refine (tracks_toInteger (within_argument hargs 0)).bind fun target _ => ?_
  refine Follows.ite (by rw [Value.isUndefined_image]) (fun _ => ?_) fun _ => ?_
  · exact (tracks_pure trivial).bind fun fill _ => hpad target fill
  · exact (tracks_toText (within_argument hargs 1)).bind fun fill _ => hpad target fill

theorem tracks_repeatText (count : Float) : (repeatText s count).Tracks e (repeatText s count) :=
  Follows.ite Iff.rfl (fun _ => follows_throwFault _ _) fun _ =>
    Follows.ite Iff.rfl (fun _ => follows_throwFault _ _) fun _ =>
      Follows.ite Iff.rfl (fun _ => .done trivial) fun _ => .done trivial

theorem tracks_normalizeText {form : Value} (hform : Within e form) :
    (normalizeText s form).Tracks e (normalizeText s (image e form)) := by
  have hcheck (name : String) : (if ["NFC", "NFD", "NFKC", "NFKD"].contains name then pure (.string s)
        else throwFault .rangeError "The normalization form should be one of NFC, NFD, NFKC, NFKD." :
          Eval Value).Tracks e
      (if ["NFC", "NFD", "NFKC", "NFKD"].contains name then pure (.string s)
        else throwFault .rangeError "The normalization form should be one of NFC, NFD, NFKC, NFKD.") :=
    Follows.ite Iff.rfl (fun _ => .done trivial) fun _ => follows_throwFault _ _
  refine Follows.ite (by rw [Value.isUndefined_image]) (fun _ => ?_) fun _ => ?_
  · exact (tracks_pure trivial).bind fun name _ => hcheck name
  · exact (tracks_toText hform).bind fun name _ => hcheck name

/-! ## 5. Splitting -/

theorem fixed_pieces (us : Array UInt16) (limit : Nat) : ∀ (ms : List Regex.Match) (start : Nat) {acc : Array Value},
    Fixed e acc → Fixed e (splitPieces us limit ms start acc).1
  | [], _, _, hacc => hacc
  | m :: ms, start, acc, hacc => by
    have hpiece : Fixed e #[Value.string (Text.sliceUnits us start m.start)] :=
      ⟨within_singleton trivial, image_singleton _⟩
    have hpieces := fixed_append hacc (fixed_append hpiece (fixed_texts m.captures))
    unfold splitPieces
    dsimp only
    split
    · exact ⟨within_extract hpieces.1 0 limit, (extract_image ..).symm.trans (congrArg (·.extract 0 limit) hpieces.2)⟩
    · exact fixed_pieces us limit ms m.stop hpieces

theorem fixed_splitAt (us : Array UInt16) (limit : Nat) (ms : List Regex.Match) :
    Fixed e (splitAt us limit ms) := by
  have hempty : Fixed e (#[] : Array Value) := ⟨within_empty, image_emptyArray⟩
  have hpieces := fixed_pieces us limit ms 0 hempty
  unfold splitAt
  split
  · rename_i acc h
    rwa [h] at hpieces
  · rename_i acc start h
    rw [h] at hpieces
    exact ⟨within_push hpieces.1 trivial, by rw [← push_image, hpieces.2]; rfl⟩

theorem tracks_splitMatches (r : Regex) (s : Regex.Subject) (size limit : Nat) :
    ∀ (fuel start place : Nat) (acc : List Regex.Match) (count : Nat),
      (splitMatches r s size limit fuel start place acc count).Follows e (fun _ => True) (fun ms => ms)
        (splitMatches r s size limit fuel start place acc count)
  | 0, _, _, _, _ => .done trivial
  | fuel + 1, start, place, acc, count => by
    refine Follows.ite Iff.rfl (fun _ => .done trivial) fun _ => follows_charge.bind fun _ _ => ?_
    cases r.findAt? s place with
    | none => exact .done trivial
    | some m =>
      refine Follows.ite Iff.rfl (fun _ => .done trivial) fun _ => Follows.ite Iff.rfl (fun _ => ?_) fun _ => ?_
      · exact tracks_splitMatches r s size limit fuel _ _ acc count
      · exact tracks_splitMatches r s size limit fuel _ _ _ _

theorem tracks_splitByRegex (r : Regex) (limit : Nat) : (splitByRegex s r limit).Tracks e (splitByRegex s r limit) := by
  have hempty : Fixed e (#[] : Array Value) := ⟨within_empty, image_emptyArray⟩
  have hwhole : Fixed e #[Value.string s] := ⟨within_singleton trivial, image_singleton _⟩
  refine Follows.ite Iff.rfl (fun _ => tracks_fixed ?_) fun _ => ?_
  · split
    · exact hempty
    · exact hwhole
  · exact (tracks_splitMatches r _ _ limit _ 0 0 [] 0).bind fun ms _ => tracks_fixed (fixed_splitAt _ limit ms)

theorem tracks_splitText {separator : Value} (hseparator : Within e separator) (limit : Nat) :
    (splitText s separator limit).Tracks e (splitText s (image e separator) limit) := by
  have hempty : Fixed e (#[] : Array Value) := ⟨within_empty, image_emptyArray⟩
  have hwhole : Fixed e #[Value.string s] := ⟨within_singleton trivial, image_singleton _⟩
  refine Follows.ite Iff.rfl (fun _ => tracks_fixed hempty) fun _ => ?_
  refine (tracks_regexOf? hseparator).bind fun r _ => ?_
  cases r with
  | some r => exact tracks_splitByRegex s r limit
  | none =>
    refine Follows.ite (by rw [Value.isUndefined_image]) (fun _ => tracks_fixed hwhole) fun _ => ?_
    refine (tracks_toText hseparator).bind fun text _ => ?_
    refine Follows.ite Iff.rfl (fun _ => tracks_fixed (fixed_array fun v hv => ?_)) fun _ =>
      tracks_fixed (fixed_splitAt _ limit _)
    obtain ⟨i, -, rfl⟩ := Array.mem_map.mp hv
    exact fixed_string _

/-! ## 6. Replacing and matching -/

theorem tracks_replacedMatches (hpattern : Within e pattern) (all : Bool) :
    (replacedMatches s pattern all).Follows e (fun _ => True) (fun ms => ms)
      (replacedMatches s (image e pattern) all) := by
  refine (tracks_regexOf? hpattern).bind fun r _ => ?_
  cases r with
  | none => exact (tracks_toText hpattern).bind fun _ _ => .done trivial
  | some r =>
    refine Follows.ite Iff.rfl (fun _ => ?_) fun _ => ?_
    · exact (tracks_putNamed hpattern "lastIndex" (Value.within_number 0.0)).bind fun _ _ => .done trivial
    · refine Follows.ite Iff.rfl (fun _ => follows_throwTypeError _) fun _ => ?_
      refine (tracks_execRegex hpattern s).bind fun found _ => follows_pure trivial ?_
      cases found <;> rfl

theorem tracks_callReplacement {f : Value} (hf : Within e f) (m : Regex.Match) (s : String) :
    (callReplacement f m s).Tracks e (callReplacement (image e f) m s) := by
  have htail : Fixed e #[Value.ofNat m.start, Value.string s] :=
    ⟨within_two (Value.within_ofNat _) trivial, by rw [image_two]; rfl⟩
  have hfixed := fixed_append (fixed_texts m.groups) htail
  have hcall (named : Array Value) (hnamed : Within e named) : (do
        toText (← call f .undefined (m.groups.map Value.ofText? ++ #[.ofNat m.start, .string s] ++ named)) :
          Eval String).Tracks e
      (do
        toText (← call (image e f) .undefined
          (m.groups.map Value.ofText? ++ #[.ofNat m.start, .string s] ++ image e named))) := by
    refine (tracks_call hf Value.within_undefined (within_appendArray hfixed.1 hnamed) ?_).bind fun v hv =>
      tracks_toText hv
    rw [← append_image, hfixed.2]
  refine Follows.ite Iff.rfl (fun _ => ?_) fun _ => ?_
  · refine (tracks_groupsOf m).bind fun groups hgroups => ?_
    exact Follows.bind (P := Within e) (g := image e)
      (follows_pure (within_singleton hgroups) (image_singleton groups).symm) hcall
  · exact Follows.bind (P := Within e) (g := image e) (follows_pure within_empty image_emptyArray.symm) hcall

theorem tracks_replaceFrom (us : Array UInt16) {replacement replacement' : Regex.Match → Eval String}
    (h : ∀ m, (replacement m).Tracks e (replacement' m)) : ∀ (ms : List Regex.Match) (start : Nat) (acc : String),
      (replaceFrom us replacement ms start acc).Tracks e (replaceFrom us replacement' ms start acc)
  | [], _, _ => .done trivial
  | m :: ms, _, _ =>
    follows_charge.bind fun _ _ => (h m).bind fun _ _ => tracks_replaceFrom us h ms m.stop _

theorem tracks_replaceText {replacement : Value} (hpattern : Within e pattern) (hreplacement : Within e replacement)
    (all : Bool) :
    (replaceText s pattern replacement all).Tracks e (replaceText s (image e pattern) (image e replacement) all) := by
  refine (tracks_replacedMatches s hpattern all).bind fun ms _ => (tracks_isCallable hreplacement).bind fun _ _ => ?_
  refine Follows.ite Iff.rfl (fun _ => ?_) fun _ => ?_
  · exact tracks_replaceFrom _ (fun m => tracks_callReplacement hreplacement m s) ms 0 ""
  · exact (tracks_toText hreplacement).bind fun template _ => tracks_replaceFrom _ (fun m => .done trivial) ms 0 ""

theorem tracks_matchText (hpattern : Within e pattern) :
    (matchText s pattern).Tracks e (matchText s (image e pattern)) := by
  refine (tracks_patternRegex hpattern "").bind fun regex hregex => (tracks_regexOf? hregex).bind fun r _ => ?_
  cases r with
  | none => exact .done trivial
  | some r =>
    refine Follows.ite Iff.rfl (fun _ => ?_) fun _ => ?_
    · refine (tracks_putNamed hregex "lastIndex" (Value.within_number 0.0)).bind fun _ _ => ?_
      refine Follows.ite Iff.rfl (fun _ => .done trivial) fun _ => tracks_fixedArray (fixed_array fun v hv => ?_)
      obtain ⟨m, -, rfl⟩ := List.mem_map.mp (List.mem_toArray.mp hv)
      exact fixed_string _
    · refine (tracks_execRegex hregex s).bind fun found _ => ?_
      cases found with
      | some m => exact tracks_matchArray m s
      | none => exact .done trivial

theorem tracks_requireGlobal (hpattern : Within e pattern) :
    (requireGlobal pattern).Tracks e (requireGlobal (image e pattern)) :=
  (tracks_regexOf? hpattern).bind fun _ _ =>
    Follows.ite (by rw [image_regex?]) (fun _ => follows_throwTypeError _) fun _ => tracks_unit

theorem tracks_matchAllText (hpattern : Within e pattern) :
    (matchAllText s pattern).Tracks e (matchAllText s (image e pattern)) := by
  refine (tracks_requireGlobal hpattern).bind fun _ _ => (tracks_patternRegex hpattern "g").bind fun regex hregex => ?_
  refine (tracks_regexOf? hregex).bind fun r _ => ?_
  cases r with
  | none => exact tracks_fixedArray ⟨within_empty, image_emptyArray⟩
  | some r =>
    have hall : ((r.findAll (.ofText s)).mapM fun m => matchArray m s).Tracks e
        ((r.findAll (.ofText s)).mapM fun m => matchArray m s) := tracks_mapM_same fun m _ => tracks_matchArray m s
    refine hall.bind fun ms hms => ?_
    have htracks := tracks_newArray (within_toArray hms)
    rwa [image_toArray] at htracks

theorem tracks_searchPlace (hpattern : Within e pattern) :
    (searchPlace s pattern).Tracks e (searchPlace s (image e pattern)) :=
  (tracks_patternRegex hpattern "").bind fun _ hregex => (tracks_regexOf? hregex).bind fun _ _ => by
    rw [image_regex?]
    exact tracks_fixed (fixed_placeOrMinusOne _)

end Eval

/-! ## 7. The functions of `String` -/

open Eval in
/-- The functions of `String` that make a text do the same on mirrors. -/
theorem StringMethod.tracks_build (hreceiver : Within e receiver) (hargs : Within e args) :
    (method.build receiver args).Tracks e (method.build (image e receiver) (image e args)) := by
  have hmapM {β : Type} [Carried β] {f : Value → Eval β} (hf : ∀ v, Within e v → (f v).Tracks e (f (image e v))) :
      (args.toList.mapM f).Tracks e ((image e args).toList.mapM f) := by
    rw [toList_image]
    exact tracks_mapM (within_toList hargs) hf
  unfold StringMethod.build
  rw [argument_image]
  cases method with
  | fromCharCode =>
    have hunit (v : Value) (hv : Within e v) :
        (do return (Number.toWord (← toNumber v)).toUInt16 : Eval UInt16).Tracks e
          (do return (Number.toWord (← toNumber (image e v))).toUInt16) :=
      (tracks_toNumber hv).bind fun _ _ => .done trivial
    refine (hmapM hunit).bind fun us _ => follows_pure trivial ?_
    exact congrArg (fun us => Value.string (Text.ofUnits us)) (List.map_id' us)
  | fromCodePoint =>
    refine (hmapM fun v hv => (tracks_toNumber hv).bind fun x _ => tracks_pointToChar x).bind fun cs _ => ?_
    exact follows_pure trivial (congrArg (fun cs => Value.string (String.ofList cs)) (List.map_id' cs))
  | raw =>
    refine (tracks_getNamed (within_argument hargs 0) "raw").bind fun raw hraw => ?_
    refine (tracks_listOf hraw).bind fun pieces hpieces => ?_
    rw [toList_image]
    exact (tracks_interleave hargs 0 "" (within_toList hpieces)).bind fun _ _ => .done trivial
  | _ =>
    have hgiven := within_getElem? hargs 0
    refine (tracks_constructing? hreceiver).bind fun target htarget => ?_
    dsimp only
    rw [getElem?_image]
    cases target with
    | some id =>
      have hid : e.Open id := within_some.mp htarget
      have hwrap (s : String) : (wrapInto id .string (.string s)).Tracks e
          (wrapInto (e.object id) .string (.string s)) := tracks_wrapInto hid .string (Value.within_string s)
      cases h : args[0]? with
      | none => exact (tracks_pure trivial).bind fun s _ => hwrap s
      | some v =>
        cases v <;> exact (tracks_toText (hgiven _ h)).bind fun s _ => hwrap s
    | none =>
      cases h : args[0]? with
      | none => exact (tracks_pure trivial).bind fun s _ => .done trivial
      | some v =>
        have hv := tracks_toText (hgiven v h)
        cases v with
        | symbol symbol =>
          exact Follows.bind (P := Within e) (g := image e) (follows_pure trivial symbol.text_image) fun s _ =>
            .done trivial
        | _ => exact hv.bind fun s _ => .done trivial

open Eval in
/-- The functions of `String` that look into a text do the same on mirrors. -/
theorem StringMethod.tracks_look (hargs : Within e args) :
    (method.look s args).Tracks e (method.look s (image e args)) := by
  have hfirst := within_argument hargs 0
  have hsecond := within_argument hargs 1
  unfold StringMethod.look
  rw [argument_image, argument_image]
  cases method with
  | charAt | unitAt | charCodeAt | codePointAt =>
    refine (tracks_toInteger hfirst).bind fun x _ => tracks_fixed ?_
    split <;> exact ⟨trivial, rfl⟩
  | indexOf =>
    refine (tracks_toText hfirst).bind fun needle _ => (tracks_placeArgument hsecond _).bind fun start _ => ?_
    exact tracks_fixed (fixed_placeOrMinusOne _)
  | lastIndexOf =>
    refine (tracks_toText hfirst).bind fun needle _ => (tracks_toNumber hsecond).bind fun x _ => ?_
    exact tracks_fixed (fixed_placeOrMinusOne _)
  | includes =>
    exact (tracks_searchText hfirst _).bind fun needle _ => (tracks_placeArgument hsecond _).bind fun _ _ => .done trivial
  | startsWith =>
    exact (tracks_searchText hfirst _).bind fun needle _ => (tracks_placeArgument hsecond _).bind fun _ _ => .done trivial
  | endsWith =>
    exact (tracks_searchText hfirst _).bind fun needle _ => (tracks_optionalPlace hsecond _ _).bind fun _ _ => .done trivial
  | slice =>
    exact (tracks_relativeArgument hfirst _ _).bind fun _ _ => (tracks_relativeArgument hsecond _ _).bind fun _ _ => .done trivial
  | substring =>
    exact (tracks_placeArgument hfirst _).bind fun _ _ => (tracks_optionalPlace hsecond _ _).bind fun _ _ => .done trivial
  | substr =>
    exact (tracks_relativeArgument hfirst _ _).bind fun _ _ => (tracks_optionalPlace hsecond _ _).bind fun _ _ => .done trivial
  | _ => exact (tracks_toText hfirst).bind fun _ _ => .done trivial

open Eval in
/-- The functions of `String` that change a text do the same on mirrors. -/
theorem StringMethod.tracks_transform (hargs : Within e args) :
    (method.transform s args).Tracks e (method.transform s (image e args)) := by
  have hfirst := within_argument hargs 0
  have hsecond := within_argument hargs 1
  unfold StringMethod.transform
  rw [argument_image, argument_image]
  cases method with
  | padStart => exact tracks_padText s hargs true
  | padEnd => exact tracks_padText s hargs false
  | repeated => exact (tracks_toInteger hfirst).bind fun count _ => tracks_repeatText s count
  | concat =>
    rw [toList_image]
    have hjoin : (args.toList.foldlM (fun acc v => do return acc ++ (← toText v)) s : Eval String).Tracks e
        ((image e args.toList).foldlM (fun acc v => do return acc ++ (← toText v)) s) :=
      tracks_foldlM (within_toList hargs) trivial rfl fun _ _ _ hv => (tracks_toText hv).bind fun _ _ => .done trivial
    exact hjoin.bind fun _ _ => .done trivial
  | normalize => exact tracks_normalizeText s hfirst
  | split =>
    have hsplit (limit : Nat) : (do newArray (← splitText s (argument args 0) limit) : Eval Value).Tracks e
        (do newArray (← splitText s (image e (argument args 0)) limit)) :=
      (tracks_splitText s hfirst limit).bind fun pieces hpieces => tracks_newArray hpieces
    refine Follows.ite (by rw [Value.isUndefined_image]) (fun _ => ?_) fun _ => ?_
    · exact (tracks_pure trivial).bind fun limit _ => hsplit limit
    · exact (tracks_toNumber hsecond).bind fun x _ => (tracks_pure trivial).bind fun limit _ => hsplit limit
  | replace => exact (tracks_replaceText s hfirst hsecond false).bind fun _ _ => .done trivial
  | replaceAll => exact (tracks_replaceText s hfirst hsecond true).bind fun _ _ => .done trivial
  | matchFirst => exact tracks_matchText s hfirst
  | matchAll => exact tracks_matchAllText s hfirst
  | toUpperCase | toLocaleUpperCase | toLowerCase | toLocaleLowerCase | trim | trimStart | trimEnd => exact .done trivial
  | _ => exact tracks_searchPlace s hfirst

open Eval in
/-- The functions of `String` do the same on mirrors. -/
theorem StringMethod.tracks_run (hreceiver : Within e receiver) (hargs : Within e args) :
    (method.run receiver args).Tracks e (method.run (image e receiver) (image e args)) := by
  cases method with
  | make | fromCharCode | fromCodePoint | raw =>
    dsimp only [StringMethod.run]
    exact StringMethod.tracks_build _ hreceiver hargs
  | toString | valueOf => exact tracks_receiverString hreceiver _
  | charAt | charCodeAt | codePointAt | unitAt | indexOf | lastIndexOf | includes | startsWith | endsWith | slice
  | substring | substr | localeCompare =>
    exact (tracks_receiverText hreceiver _).bind fun s _ => StringMethod.tracks_look _ s hargs
  | _ => exact (tracks_receiverText hreceiver _).bind fun s _ => StringMethod.tracks_transform _ s hargs

end GuestScript
