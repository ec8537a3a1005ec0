import GuestScript.Proofs.Mirror.Builtin.Array

/-!
# `JSON` on mirrors

Reading and writing documents does the same on both sides. A document holds no address.
-/

namespace GuestScript

variable {e : Embedding}

namespace Eval

/-! ## 1. Documents as values -/

mutual

theorem tracks_ofJson : (document : Json) → (ofJson document).Tracks e (ofJson document)
  | .null | .bool _ | .number _ | .string _ => .done trivial
  | .array items => by
    have hitems : (ofJsonItems items #[]).Tracks e (ofJsonItems items (image e #[])) :=
      tracks_ofJsonItems items within_empty
    rw [image_emptyArray] at hitems
    exact hitems.bind fun items hitems => tracks_newArray hitems
  | .object members =>
    tracks_newPlain.bind fun _ hid => (tracks_ofJsonMembers hid members).bind fun _ _ => .done (Value.within_object hid)

theorem tracks_ofJsonItems : (l : List Json) → {acc : Array Value} → Within e acc →
    (ofJsonItems l acc).Tracks e (ofJsonItems l (image e acc))
  | [], _, hacc => .done hacc
  | item :: rest, acc, hacc => (tracks_ofJson item).bind fun v hv => by
    have hrest := tracks_ofJsonItems rest (within_push hacc hv)
    rwa [← push_image] at hrest

theorem tracks_ofJsonMembers {id : ObjectId} (hid : e.Open id) : (l : List (String × Json)) →
    (ofJsonMembers id l).Tracks e (ofJsonMembers (e.object id) l)
  | [] => tracks_unit
  | (name, value) :: rest => (tracks_ofJson value).bind fun _ hv =>
    (tracks_defineOwn hid (.string name) (within_ordinary hv)).discard.bind fun _ _ => tracks_ofJsonMembers hid rest

end

/-! ## 2. Revivers -/

theorem tracks_revive {reviver : Value} (hreviver : Within e reviver) : ∀ (fuel : Nat) {holder : Value} (name : String),
    Within e holder → (revive reviver fuel holder name).Tracks e (revive (image e reviver) fuel (image e holder) name)
  | 0, _, _, _ => follows_exhausted
  | fuel + 1, holder, name, hholder => by
    refine (tracks_getNamed hholder name).bind fun v hv => ?_
    have hcall : (call reviver holder #[.string name, v]).Tracks e
        (call (image e reviver) (image e holder) #[.string name, image e v]) :=
      tracks_call hreviver hholder (within_two (Value.within_string name) hv) (by simp)
    cases v with
    | object id =>
      refine (tracks_enumerableNames_own hv).bind fun names _ => ?_
      refine (tracks_forM_same fun k _ => ?_).bind fun _ _ => hcall
      refine (tracks_revive hreviver fuel k (Value.within_object hv)).bind fun revived hrevived => ?_
      refine Follows.ite (by rw [Value.isUndefined_image]) (fun _ => ?_) fun _ => ?_
      · have hdelete : (updateObject id fun o => o.delete (.string k)).Tracks e
            (updateObject (e.object id) fun o => o.delete (.string k)) :=
          follows_updateObject hv (.asked (.delete _)) fun o ho =>
            ⟨Object.within_delete ho (.string k), trivial, Object.delete_image o (.string k)⟩
        exact hdelete.discard
      · exact (tracks_defineOwn hv (.string k) (within_ordinary hrevived)).discard
    | _ => exact hcall

theorem tracks_parseJson (text : String) {reviver : Value} (hreviver : Within e reviver) :
    (parseJson text reviver).Tracks e (parseJson text (image e reviver)) := by
  unfold parseJson
  cases Json.parse text with
  | error problem => exact follows_throwFault _ _
  | ok document =>
    refine (tracks_ofJson document).bind fun v hv => (tracks_isCallable hreviver).bind fun _ _ => ?_
    refine Follows.ite Iff.rfl (fun _ => ?_) fun _ => .done hv
    refine tracks_newPlain.bind fun root hroot => ?_
    exact (tracks_insertValue hroot "" hv).bind fun _ _ =>
      tracks_revive hreviver nestingLimit "" (Value.within_object hroot)

/-! ## 3. Values as text -/

instance : Carried JsonStyle where
  Within e style := Within e style.replacer
  image e style := { style with replacer := image e style.replacer }

theorem tracks_jsonConverted (name : String) {v : Value} (hv : Within e v) :
    (jsonConverted name v).Tracks e (jsonConverted name (image e v)) := by
  refine Follows.ite (by rw [Value.isObject_image]) (fun _ => ?_) fun _ => .done hv
  refine (tracks_getNamed hv "toJSON").bind fun convert hconvert => (tracks_isCallable hconvert).bind fun _ _ => ?_
  refine Follows.ite Iff.rfl (fun _ => ?_) fun _ => .done hv
  exact tracks_call hconvert hv (within_singleton (Value.within_string name)) (by simp)

theorem tracks_jsonReplaced {style : JsonStyle} (hstyle : Within e style) {holder : Value} (hholder : Within e holder)
    (name : String) {v : Value} (hv : Within e v) :
    (jsonReplaced style holder name v).Tracks e (jsonReplaced (image e style) (image e holder) name (image e v)) := by
  obtain ⟨replacer, allowed, gap⟩ := style
  cases replacer with
  | none => exact .done hv
  | some f =>
    have hf : Within e f := within_some.mp hstyle
    exact tracks_call hf hholder (within_two (Value.within_string name) hv) (by simp)

theorem tracks_jsonUnwrapped {v : Value} (hv : Within e v) :
    (jsonUnwrapped v).Tracks e (jsonUnwrapped (image e v)) := by
  cases v with
  | object id =>
    refine (tracks_object (.inl hv)).bind fun o ho => ?_
    refine Follows.ite (by rw [Object.sort_image]) (fun _ => ?_) fun _ => .done hv
    have hprimitive := ho.primitive
    rw [Object.primitive_image]
    cases h : o.primitive with
    | none => exact .done hv
    | some p =>
      have hp : Within e p := hprimitive p h
      cases p with
      | number x => exact (tracks_toNumber hv).bind fun _ _ => .done trivial
      | string s => exact (tracks_toText hv).bind fun _ _ => .done trivial
      | _ => exact .done hp
  | _ => exact .done hv

theorem tracks_jsonForm {style : JsonStyle} (hstyle : Within e style) {holder : Value} (hholder : Within e holder)
    (name : String) {v : Value} (hv : Within e v) :
    (jsonForm style holder name v).Tracks e (jsonForm (image e style) (image e holder) name (image e v)) :=
  (tracks_jsonConverted name hv).bind fun _ hv => (tracks_jsonReplaced hstyle hholder name hv).bind fun _ hv =>
    tracks_jsonUnwrapped hv

/-- What writes a value under a name, wherever the value is. -/
def Writes (e : Embedding) (write write' : String → Value → Eval (Option String)) : Prop :=
  ∀ name v, Within e v → (write name v).Follows e (fun _ => True) (fun text => text) (write' name (image e v))

theorem follows_jsonElements {write write' : String → Value → Eval (Option String)} (hwrite : Writes e write write') :
    ∀ {l : List Value} (i : Nat) (acc : List String), Within e l →
      (jsonElements write l i acc).Follows e (fun _ => True) (fun texts => texts)
        (jsonElements write' (image e l) i acc)
  | [], _, _, _ => .done trivial
  | v :: _, i, _, hl =>
    (hwrite (toString i) v (within_cons.mp hl).1).bind fun _ _ =>
      follows_jsonElements hwrite (i + 1) _ (within_cons.mp hl).2

theorem follows_jsonProperties {write write' : String → Value → Eval (Option String)} (hwrite : Writes e write write')
    {target : Value} (htarget : Within e target) (separator : String) : ∀ (names : List String) (acc : List String),
      (jsonProperties write target separator names acc).Follows e (fun _ => True) (fun texts => texts)
        (jsonProperties write' (image e target) separator names acc)
  | [], _ => .done trivial
  | name :: names, acc => by
    refine (tracks_getNamed htarget name).bind fun v hv => (hwrite name v hv).bind fun text _ => ?_
    cases text with
    | some text => exact follows_jsonProperties hwrite htarget separator names _
    | none => exact follows_jsonProperties hwrite htarget separator names acc

theorem follows_jsonProperty {style : JsonStyle} (hstyle : Within e style) :
    ∀ (fuel : Nat) {around : List ObjectId} (indent : String) {holder : Value} (name : String) {v : Value},
      Within e around → Within e holder → Within e v →
        (jsonProperty style fuel around indent holder name v).Follows e (fun _ => True) (fun text => text)
          (jsonProperty (image e style) fuel (image e around) indent (image e holder) name (image e v))
  | 0, _, _, _, _, _, _, _, _ => follows_exhausted
  | fuel + 1, around, indent, holder, name, v, haround, hholder, hv => by
    refine follows_charge.bind fun _ _ => (tracks_jsonForm hstyle hholder name hv).bind fun v hv => ?_
    cases v with
    | object id =>
      refine (tracks_object (.inl hv)).bind fun o ho => ?_
      refine Follows.ite (by rw [Object.callable_image, isSome_image]) (fun _ => .done trivial) fun _ => ?_
      refine Follows.ite (by rw [contains_image haround hv]) (fun _ => follows_throwTypeError _) fun _ => ?_
      have hwrite : Writes e (jsonProperty style fuel (id :: around) (indent ++ style.gap) (.object id))
          (jsonProperty (image e style) fuel (image e (id :: around)) (indent ++ style.gap)
            (.object (e.object id))) :=
        fun name w hw => follows_jsonProperty hstyle fuel (indent ++ style.gap) name
          (within_cons.mpr ⟨hv, haround⟩) hv hw
      refine Follows.ite (by rw [Object.isArray_image]) (fun _ => ?_) fun _ => ?_
      · refine (tracks_listOf hv).bind fun items hitems => ?_
        rw [toList_image]
        exact (follows_jsonElements hwrite 0 [] (within_toList hitems)).bind fun _ _ => .done trivial
      · rw [Object.enumerableNames_image]
        exact (follows_jsonProperties hwrite hv _ _ []).bind fun _ _ => .done trivial
    | _ => exact .done trivial

theorem follows_allowedNames : ∀ {l : List Value} (acc : List String), Within e l →
    (allowedNames l acc).Follows e (fun _ => True) (fun names => names) (allowedNames (image e l) acc)
  | [], _, _ => .done trivial
  | v :: l, acc, hl => by
    have hrest (acc : List String) := follows_allowedNames acc (within_cons.mp hl).2
    cases v
    all_goals
      refine Follows.bind (P := fun _ => True) (g := fun name => name) (.done trivial) fun name _ => ?_
      cases name with
      | none => exact hrest _
      | some name => exact hrest _

theorem gapOf_image (v : Value) : gapOf (image e v) = gapOf v := by
  cases v <;> rfl

theorem tracks_styleOf {replacer : Value} (hreplacer : Within e replacer) :
    (styleOf replacer).Tracks e (styleOf (image e replacer)) := by
  have hplain : (pure {} : Eval JsonStyle).Tracks e (pure {}) := .done within_none
  cases replacer with
  | object id =>
    refine (tracks_object (.inl hreplacer)).bind fun o ho => ?_
    refine Follows.ite (by rw [Object.callable_image, isSome_image]) (fun _ => .done (within_some.mpr hreplacer))
      fun _ => Follows.ite (by rw [Object.isArray_image]) (fun _ => ?_) fun _ => hplain
    refine (tracks_listOf hreplacer).bind fun names hnames => ?_
    rw [toList_image]
    exact (follows_allowedNames [] (within_toList hnames)).bind fun _ _ => .done within_none
  | _ => exact hplain

theorem tracks_spaceOf {space : Value} (hspace : Within e space) :
    (spaceOf space).Tracks e (spaceOf (image e space)) := by
  cases space with
  | object id =>
    refine (tracks_object (.inl hspace)).bind fun o ho => ?_
    exact follows_pure (within_getD ho.primitive Value.within_undefined) (getD_image o.primitive .undefined)
  | _ => exact .done hspace

theorem follows_jsonText {value replacer space : Value} (hvalue : Within e value) (hreplacer : Within e replacer)
    (hspace : Within e space) :
    (jsonText value replacer space).Follows e (fun _ => True) (fun text => text)
      (jsonText (image e value) (image e replacer) (image e space)) := by
  refine (tracks_styleOf hreplacer).bind fun style hstyle => (tracks_spaceOf hspace).bind fun space hspace => ?_
  refine tracks_newPlain.bind fun root hroot => (tracks_insertValue hroot "" hvalue).bind fun _ _ => ?_
  rw [gapOf_image]
  have hgap : Within e ({ style with gap := gapOf space } : JsonStyle) := hstyle
  exact follows_jsonProperty hgap nestingLimit "" "" within_nil (Value.within_object hroot) hvalue

end Eval

open Eval in
/-- The functions of `JSON` do the same on mirrors. -/
theorem JsonMethod.tracks_run (method : JsonMethod) {args : Array Value} (hargs : Within e args) :
    (method.run args).Tracks e (method.run (image e args)) := by
  unfold JsonMethod.run
  rw [argument_image, argument_image, argument_image]
  cases method with
  | parse =>
    exact (tracks_toText (within_argument hargs 0)).bind fun text _ => tracks_parseJson text (within_argument hargs 1)
  | stringify =>
    refine (follows_jsonText (within_argument hargs 0) (within_argument hargs 1) (within_argument hargs 2)).bind
      fun text _ => follows_pure (within_ofText? text) (image_ofText? text).symm

end GuestScript
