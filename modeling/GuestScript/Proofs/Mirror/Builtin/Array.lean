import GuestScript.Proofs.Mirror.Builtin.Object

/-!
# Functions of arrays on mirrors

The functions of `Array` do the same on both sides. They work on lists of elements, which are moved element by element;
what they do for each element is moved along with it (`Visits`, `Compares`).
-/

namespace GuestScript

variable {elements args : Array Value} {receiver subject : Value} {e : Embedding}

/-! ## 1. Lists of elements -/

namespace Elements

theorem splice_image (elements items : Array Value) (start count : Nat) :
    splice (image e elements) start count (image e items) = image e (splice elements start count items) := by
  unfold splice
  rw [size_image, extract_image, extract_image, append_image, append_image]

theorem within_splice {items : Array Value} (h : Within e elements) (hitems : Within e items) (start count : Nat) :
    Within e (splice elements start count items) :=
  within_appendArray (within_appendArray (within_extract h _ _) hitems) (within_extract h _ _)

theorem fill_image (elements : Array Value) (v : Value) (start stop : Nat) :
    fill (image e elements) (image e v) start stop = image e (fill elements v start stop) := by
  refine Array.ext (by simp [fill]) fun i _ _ => ?_
  simp only [fill, image_array, Array.getElem_mapIdx, Array.getElem_map]
  split <;> rfl

theorem within_fill (h : Within e elements) {v : Value} (hv : Within e v) (start stop : Nat) :
    Within e (fill elements v start stop) := by
  intro w hw
  obtain ⟨i, hi, rfl⟩ := Array.mem_mapIdx.mp hw
  split
  · exact hv
  · exact h _ (Array.getElem_mem hi)

theorem copyWithin_image (elements : Array Value) (size target start stop : Nat) :
    copyWithin (image e elements) size target start stop = image e (copyWithin elements size target start stop) := by
  unfold copyWithin
  dsimp only
  rw [extract_image, size_image, splice_image]

theorem within_copyWithin (h : Within e elements) (size target start stop : Nat) :
    Within e (copyWithin elements size target start stop) :=
  within_splice h (within_extract h _ _) _ _

theorem indexed_image (elements : Array Value) : indexed (image e elements) = image e (indexed elements) := by
  simp [indexed, toList_image, image_list, List.zipIdx_map, Function.comp_def]

theorem within_indexed (h : Within e elements) : Within e (indexed elements) := by
  intro entry hentry
  obtain ⟨⟨v, i⟩, hmem, rfl⟩ := List.mem_map.mp hentry
  exact ⟨trivial, within_toList h v (List.fst_mem_of_mem_zipIdx hmem)⟩

/-- A search that compares places and values finds the same place. -/
theorem find?_indexed_image (h : Within e elements) {p q : Nat → Value → Bool}
    (hp : ∀ i v, Within e v → q i (image e v) = p i v) :
    ((indexed (image e elements)).find? fun entry => q entry.1 entry.2).map Prod.fst =
      ((indexed elements).find? fun entry => p entry.1 entry.2).map Prod.fst := by
  have hindexed := within_indexed h
  rw [indexed_image]
  generalize indexed elements = l at hindexed ⊢
  induction l with
  | nil => rfl
  | cons entry l ih =>
    have hentry : q (image e entry).1 (image e entry).2 = p entry.1 entry.2 := hp _ _ (within_cons.mp hindexed).1.2
    rw [image_list, List.map_cons, List.find?_cons, List.find?_cons, hentry]
    cases p entry.1 entry.2 with
    | true => rfl
    | false => exact ih (within_cons.mp hindexed).2

end Elements

/-- A test that an embedding keeps. -/
theorem any_image {l : Array Value} (hl : Within e l) {p q : Value → Bool}
    (hp : ∀ v, Within e v → q (image e v) = p v) : (image e l).any q = l.any p := by
  rw [image_array, Array.any_map, Bool.eq_iff_iff, Array.any_eq_true', Array.any_eq_true']
  exact exists_congr fun v => and_congr_right fun hv => by rw [Function.comp_apply, hp v (hl v hv)]

namespace Eval

variable {α : Type} {P : α → Prop} {g : α → α} {f f' : Array Value → Array Value × α}

theorem tracks_elementsOf (hreceiver : Within e receiver) :
    (elementsOf receiver).Tracks e (elementsOf (image e receiver)) :=
  (tracks_toObject hreceiver).bind fun _ hid => tracks_listOf (Value.within_object hid)

theorem tracks_flatten : ∀ (fuel : Nat) (depth : Float) {values : List Value} {acc : Array Value}, Within e values →
    Within e acc → (flatten fuel depth values acc).Tracks e (flatten fuel depth (image e values) (image e acc))
  | 0, _, _, _, _, _ => follows_exhausted
  | fuel + 1, depth, values, acc, hvalues, hacc => by
    refine tracks_foldlM hvalues hacc rfl fun acc v hacc hv => ?_
    have hpush (w : Value) (hw : Within e w) :
        (pure (acc.push w) : Eval (Array Value)).Tracks e (pure ((image e acc).push (image e w))) :=
      follows_pure (within_push hacc hw) (push_image acc w)
    cases v with
    | object id =>
      refine (tracks_object (.inl hv)).bind fun o ho => ?_
      refine Follows.ite (by rw [Object.isArray_image]) (fun _ => ?_) fun _ => hpush _ hv
      have helements : Within e (o.elements.getD #[]) := within_getD ho.elements within_empty
      have hinner := tracks_flatten fuel (depth - 1.0) (within_toList helements) hacc
      have himage : ((image e o).elements.getD #[]).toList = image e (o.elements.getD #[]).toList := by
        rw [← toList_image, ← getD_image, image_emptyArray, Object.elements_image]
      rwa [← himage] at hinner
    | _ => exact hpush _ hv

theorem tracks_writeElements {target : Value} (htarget : Within e target) : ∀ {l : List Value} (i : Nat), Within e l →
    (writeElements target l i).Tracks e (writeElements (image e target) (image e l) i)
  | [], _, _ => tracks_unit
  | _ :: _, i, hl =>
    (tracks_put htarget (.index i) (within_cons.mp hl).1).bind fun _ _ =>
      tracks_writeElements htarget (i + 1) (within_cons.mp hl).2

theorem tracks_deleteElements {target : Value} (htarget : Within e target) : ∀ count i : Nat,
    (deleteElements target count i).Tracks e (deleteElements (image e target) count i)
  | 0, _ => tracks_unit
  | count + 1, i =>
    (tracks_deleteProperty htarget (.index i)).discard.bind fun _ _ => tracks_deleteElements htarget count (i + 1)

theorem tracks_checkBounds (fits : Bool) : (checkBounds fits).Tracks e (checkBounds fits) :=
  have hstop : Within e Stop.panicked := trivial
  Follows.ite Iff.rfl (fun _ => tracks_unit) fun _ => .stop hstop

theorem follows_changeElementsIf (hreceiver : Within e receiver) (fits : Nat → Bool)
    (hf : ∀ es, Within e es → Within e (f es).1 ∧ P (f es).2 ∧ f' (image e es) = (image e (f es).1, g (f es).2)) :
    (changeElementsIf receiver fits f).Follows e P g (changeElementsIf (image e receiver) fits f') := by
  refine (tracks_toObject hreceiver).bind fun id hid => (tracks_checkMutable (.inl hid)).bind fun _ _ => ?_
  refine (tracks_object (.inl hid)).bind fun o _ => ?_
  refine Follows.ite (by rw [Object.frozen_image]) (fun _ => follows_throwTypeError _) fun _ => ?_
  refine Follows.ite (by rw [Object.elements_image, isSome_image]) (fun _ => ?_) fun _ => ?_
  · have hsize : ((image e o).elements.getD #[]).size = (o.elements.getD #[]).size := by
      cases ho : o.elements <;> simp [Object.elements_image, ho, image_option, size_image]
    rw [hsize]
    refine (tracks_checkBounds _).bind fun _ _ => follows_updateObject hid (.asked (.elements f)) fun o ho => ?_
    have hes : Within e (o.elements.getD #[]) := within_getD ho.elements within_empty
    obtain ⟨hnew, hresult, heq⟩ := hf _ hes
    have hslots : Within e { o with elements := some (f (o.elements.getD #[])).1 } :=
      { ho with elements := within_some.mpr hnew }
    have himage : (image e o).elements.getD #[] = image e (o.elements.getD #[]) := by
      rw [← getD_image, image_emptyArray, Object.elements_image]
    have hnone : (image e o).elements.isNone = o.elements.isNone := by
      rw [Object.elements_image]
      exact Option.isNone_map
    unfold Object.changeElements
    dsimp only
    rw [himage, hnone, Object.frozen_image, heq]
    split
    · exact ⟨ho, hresult, rfl⟩
    · exact ⟨hslots, hresult, rfl⟩
  · have htarget := Value.within_object hid
    refine (tracks_listOf htarget).bind fun old hold => ?_
    obtain ⟨hnew, hresult, heq⟩ := hf old hold
    rw [size_image, heq]
    refine (tracks_checkBounds _).bind fun _ _ => ?_
    generalize f old = changed at hnew hresult ⊢
    obtain ⟨elements, a⟩ := changed
    dsimp only
    rw [toList_image, size_image]
    refine (tracks_writeElements htarget 0 (within_toList hnew)).bind fun _ _ => ?_
    refine (tracks_deleteElements htarget _ _).bind fun _ _ => ?_
    exact (tracks_putNamed htarget "length" (Value.within_ofNat _)).bind fun _ _ => .done hresult

theorem follows_changeElements (hreceiver : Within e receiver)
    (hf : ∀ es, Within e es → Within e (f es).1 ∧ P (f es).2 ∧ f' (image e es) = (image e (f es).1, g (f es).2)) :
    (changeElements receiver f).Follows e P g (changeElements (image e receiver) f') :=
  follows_changeElementsIf hreceiver _ hf

theorem tracks_callbackArgument (hargs : Within e args) (method : String) :
    (callbackArgument args method).Tracks e (callbackArgument (image e args) method) := by
  have hf := within_argument hargs 0
  unfold callbackArgument
  rw [argument_image]
  exact (tracks_requireCallable hf method).bind fun _ _ => .done hf

/-! ## 2. Callbacks -/

/-- What is done for each element of a list, wherever its value is. -/
def Visits {β : Type} [Carried β] (e : Embedding) (f f' : Nat → Value → Eval β) : Prop :=
  ∀ i v, Within e v → (f i v).Tracks e (f' i (image e v))

theorem visits_visit {f : Value} (hf : Within e f) (hreceiver : Within e receiver) (hsubject : Within e subject) :
    Visits e (visit f receiver subject) (visit (image e f) (image e receiver) (image e subject)) :=
  fun i _ hv => tracks_callback hf hreceiver (within_three hv (Value.within_ofNat i) hsubject) (by simp)

section

variable {f f' : Nat → Value → Eval Value} (hf : Visits e f f')

include hf

theorem tracks_mapElements : ∀ {l : List (Nat × Value)} {acc : Array Value}, Within e l → Within e acc →
    (mapElements f l acc).Tracks e (mapElements f' (image e l) (image e acc))
  | [], _, _, hacc => .done hacc
  | (i, v) :: l, acc, hl, hacc =>
    (hf i v (within_cons.mp hl).1.2).bind fun r hr => by
      have hrest := tracks_mapElements (within_cons.mp hl).2 (within_push hacc hr)
      rwa [← push_image] at hrest

theorem tracks_filterElements : ∀ {l : List (Nat × Value)} {acc : Array Value}, Within e l → Within e acc →
    (filterElements f l acc).Tracks e (filterElements f' (image e l) (image e acc))
  | [], _, _, hacc => .done hacc
  | (i, v) :: l, acc, hl, hacc =>
    (hf i v (within_cons.mp hl).1.2).bind fun keep _ => by
      have hv : Within e v := (within_cons.mp hl).1.2
      rw [Value.truthy_image]
      cases keep.truthy with
      | false => exact tracks_filterElements (within_cons.mp hl).2 hacc
      | true =>
        have hrest := tracks_filterElements (within_cons.mp hl).2 (within_push hacc hv)
        rwa [← push_image] at hrest

theorem tracks_findElement (wanted : Bool) : ∀ {l : List (Nat × Value)}, Within e l →
    (findElement f wanted l).Tracks e (findElement f' wanted (image e l))
  | [], _ => .done within_none
  | (i, v) :: l, hl =>
    (hf i v (within_cons.mp hl).1.2).bind fun r _ =>
      Follows.ite (by rw [Value.truthy_image]) (fun _ => .done (within_some.mpr (within_cons.mp hl).1)) fun _ =>
        tracks_findElement wanted (within_cons.mp hl).2

end

theorem tracks_foldElements {f subject : Value} (hf : Within e f) (hsubject : Within e subject) :
    ∀ {l : List (Nat × Value)} {acc : Value}, Within e l → Within e acc →
      (foldElements f subject l acc).Tracks e (foldElements (image e f) (image e subject) (image e l) (image e acc))
  | [], _, _, hacc => .done hacc
  | (i, v) :: _, _, hl, hacc =>
    have hv : Within e v := (within_cons.mp hl).1.2
    have hargs := within_four hacc hv (Value.within_ofNat i) hsubject
    (tracks_callback hf Value.within_undefined hargs (by simp)).bind fun _ hr => tracks_foldElements hf hsubject (within_cons.mp hl).2 hr

theorem tracks_reduceElements (hsubject : Within e subject) (hargs : Within e args) {l : List (Nat × Value)}
    (hl : Within e l) :
    (reduceElements subject args l).Tracks e (reduceElements (image e subject) (image e args) (image e l)) := by
  refine (tracks_callbackArgument hargs _).bind fun f hf => ?_
  have hgiven := within_getElem? hargs 1
  rw [getElem?_image]
  cases h : args[1]? with
  | some v => exact tracks_foldElements hf hsubject hl (hgiven v h)
  | none =>
    cases l with
    | nil => exact follows_throwTypeError _
    | cons entry l => exact tracks_foldElements hf hsubject (within_cons.mp hl).2 (within_cons.mp hl).1.2

theorem tracks_searchElements (hsubject : Within e subject) (hargs : Within e args) (fromEnd : Bool) (method : String) :
    (searchElements subject args fromEnd method).Tracks e
      (searchElements (image e subject) (image e args) fromEnd method) := by
  refine (tracks_callbackArgument hargs method).bind fun f hf => ?_
  refine (tracks_elementsOf hsubject).bind fun es hes => ?_
  have hvisit := visits_visit hf (within_argument hargs 1) hsubject
  have hindexed := Elements.within_indexed hes
  rw [argument_image, Elements.indexed_image]
  cases fromEnd with
  | false => exact tracks_findElement hvisit true hindexed
  | true =>
    have hfind := tracks_findElement hvisit true (within_reverse hindexed)
    rwa [image_reverse] at hfind

/-! ## 3. Sorting -/

/-- What compares two values, wherever they are. -/
def Compares (e : Embedding) (f f' : Value → Value → Eval Bool) : Prop :=
  ∀ a b, Within e a → Within e b → (f a b).Tracks e (f' (image e a) (image e b))

/-- What is left when one of the lists is empty. -/
theorem tracks_merged {ls rs acc : List Value} (hls : Within e ls) (hrs : Within e rs) (hacc : Within e acc) :
    (pure (acc.reverse ++ ls ++ rs) : Eval (List Value)).Tracks e
      (pure ((image e acc).reverse ++ image e ls ++ image e rs)) := by
  refine follows_pure (within_append (within_append (within_reverse hacc) hls) hrs) ?_
  simp only [image_list, List.map_append, List.map_reverse]

section

variable {f f' : Value → Value → Eval Bool} (hf : Compares e f f')

include hf

theorem tracks_merge : ∀ (count : Nat) {ls rs acc : List Value}, Within e ls → Within e rs → Within e acc →
    (merge f count ls rs acc).Tracks e (merge f' count (image e ls) (image e rs) (image e acc))
  | count + 1, l :: ls, r :: rs, acc, hls, hrs, hacc => by
    refine (hf l r (within_cons.mp hls).1 (within_cons.mp hrs).1).bind fun _ _ => ?_
    refine Follows.ite Iff.rfl (fun _ => ?_) fun _ => ?_
    · exact tracks_merge count (within_cons.mp hls).2 hrs (within_cons.mpr ⟨(within_cons.mp hls).1, hacc⟩)
    · exact tracks_merge count hls (within_cons.mp hrs).2 (within_cons.mpr ⟨(within_cons.mp hrs).1, hacc⟩)
  | 0, ls, rs, acc, hls, hrs, hacc => tracks_merged hls hrs hacc
  | count + 1, [], rs, acc, hls, hrs, hacc => tracks_merged hls hrs hacc
  | count + 1, l :: ls, [], acc, hls, hrs, hacc => tracks_merged hls hrs hacc

theorem tracks_mergeSort : ∀ (fuel : Nat) {l : List Value}, Within e l →
    (mergeSort f fuel l).Tracks e (mergeSort f' fuel (image e l))
  | 0, _, hl => .done hl
  | fuel + 1, l, hl => by
    have hlength : (image e l).length = l.length := List.length_map _
    have htake : Within e (l.take (l.length / 2)) := fun v hv => hl v (List.mem_of_mem_take hv)
    have hdrop : Within e (l.drop (l.length / 2)) := fun v hv => hl v (List.mem_of_mem_drop hv)
    have hleft := tracks_mergeSort fuel htake
    have hright := tracks_mergeSort fuel hdrop
    rw [image_list, List.map_take] at hleft
    rw [image_list, List.map_drop] at hright
    refine Follows.ite (by rw [hlength]) (fun _ => .done hl) fun _ => ?_
    dsimp only
    rw [hlength]
    exact hleft.bind fun ls hls => hright.bind fun rs hrs => tracks_merge hf l.length hls hrs within_nil

end

theorem tracks_keyed {l : List Value} (hl : Within e l) :
    (l.mapM fun v => do return (← toText v, v) : Eval (List (String × Value))).Tracks e
      ((image e l).mapM fun v => do return (← toText v, v)) :=
  tracks_mapM hl fun _ hv => (tracks_toText hv).bind fun _ _ => .done ⟨trivial, hv⟩

theorem tracks_sortKeyed {keyed : List (String × Value)} (hkeyed : Within e keyed) :
    (pure ((keyed.mergeSort fun a b => !Text.before b.1 a.1).map Prod.snd) : Eval (List Value)).Tracks e
      (pure (((image e keyed).mergeSort fun a b => !Text.before b.1 a.1).map Prod.snd)) := by
  refine follows_pure (fun v hv => ?_) ?_
  · obtain ⟨entry, hentry, rfl⟩ := List.mem_map.mp hv
    exact (hkeyed entry (List.mem_mergeSort.mp hentry)).2
  · have hsort : (keyed.mergeSort fun a b => !Text.before b.1 a.1).map (image e) =
        (keyed.map (image e)).mergeSort fun a b => !Text.before b.1 a.1 :=
      List.map_mergeSort fun _ _ _ _ => rfl
    simp only [image_list, ← hsort, List.map_map]
    rfl

theorem tracks_sortValues {values : Array Value} (hvalues : Within e values) {compare : Value}
    (hcompare : Within e compare) :
    (sortValues values compare).Tracks e (sortValues (image e values) (image e compare)) := by
  have hfilter (p : Value → Bool) (hp : ∀ v, p (image e v) = p v) :
      (image e values.toList).filter p = image e (values.toList.filter p) := by
    rw [image_list, image_list, List.filter_map]
    exact congrArg (List.map _) (List.filter_congr fun v _ => hp v)
  have hdefined := hfilter (fun v => !v.isUndefined) fun v => by rw [Value.isUndefined_image]
  have hmissing := hfilter (not ∘ fun v => !v.isUndefined) fun v => by simp
  have hwithin (p : Value → Bool) : Within e (values.toList.filter p) := fun v hv =>
    within_toList hvalues v (List.mem_of_mem_filter hv)
  unfold sortValues
  rw [toList_image, List.partition_eq_filter_filter, List.partition_eq_filter_filter, hdefined, hmissing]
  have hdefined := hwithin fun v => !v.isUndefined
  have hmissing := hwithin (not ∘ fun v => !v.isUndefined)
  generalize values.toList.filter (fun v => !v.isUndefined) = defined at hdefined ⊢
  generalize values.toList.filter (not ∘ fun v => !v.isUndefined) = missing at hmissing ⊢
  dsimp only
  have hlast (sorted : List Value) (hsorted : Within e sorted) :
      (pure (sorted ++ missing).toArray : Eval (Array Value)).Tracks e
        (pure (image e sorted ++ image e missing).toArray) :=
    follows_pure (within_toArray (within_append hsorted hmissing)) (by simp [image_array, image_list])
  refine Follows.ite (by rw [Value.isUndefined_image]) (fun _ => ?_) fun _ => ?_
  · exact (tracks_keyed hdefined).bind fun keyed hkeyed => (tracks_sortKeyed hkeyed).bind hlast
  · have hlength : (image e defined).length = defined.length := List.length_map _
    rw [hlength]
    refine (tracks_mergeSort (fun a b ha hb => ?_) defined.length hdefined).bind hlast
    refine (tracks_callback hcompare Value.within_undefined (within_two ha hb) (by simp)).bind fun v hv => ?_
    exact (tracks_toNumber hv).bind fun _ _ => .done trivial

theorem tracks_compareArgument (hargs : Within e args) (method : String) :
    (compareArgument args method).Tracks e (compareArgument (image e args) method) := by
  have hf := within_argument hargs 0
  unfold compareArgument
  rw [argument_image]
  refine Follows.ite (by rw [Value.isUndefined_image]) (fun _ => ?_) fun _ => .done hf
  exact (tracks_requireCallable hf method).bind fun _ _ => .done hf

/-! ## 4. Joining -/

theorem tracks_joinElements (separator : String) : ∀ {l : List Value} (isFirst : Bool) (acc : String), Within e l →
    (joinElements separator l isFirst acc).Tracks e (joinElements separator (image e l) isFirst acc)
  | [], _, _, _ => .done trivial
  | v :: l, isFirst, acc, hl => by
    have hrest (text : String) := tracks_joinElements separator false
      ((if isFirst then acc else acc ++ separator) ++ text) (within_cons.mp hl).2
    refine Follows.ite (by rw [Value.isNullish_image]) (fun _ => ?_) fun _ => ?_
    · exact (tracks_pure trivial).bind fun text _ => hrest text
    · exact (tracks_toText (within_cons.mp hl).1).bind fun text _ => hrest text

/-- An embedding keeps the members of a list apart. -/
theorem contains_image {ids : List ObjectId} (hids : Within e ids) {id : ObjectId} (hid : e.Open id) :
    (image e ids).contains (e.object id) = ids.contains id := by
  rw [Bool.eq_iff_iff, List.contains_iff_mem, List.contains_iff_mem]
  refine ⟨fun hmem => ?_, fun hmem => List.mem_map_of_mem hmem⟩
  obtain ⟨other, hother, heq⟩ := List.mem_map.mp hmem
  rwa [← e.object_injective (.inl (hids other hother)) (.inl hid) heq]

theorem tracks_joinText (hreceiver : Within e receiver) (separator : String) :
    (do joinElements separator (← elementsOf receiver).toList true "" : Eval String).Tracks e
      (do joinElements separator (← elementsOf (image e receiver)).toList true "") :=
  (tracks_elementsOf hreceiver).bind fun es hes => by
    rw [toList_image]
    exact tracks_joinElements separator true "" (within_toList hes)

theorem tracks_joinReceiver {separator : Value} (hreceiver : Within e receiver) (hseparator : Within e separator) :
    (joinReceiver receiver separator).Tracks e (joinReceiver (image e receiver) (image e separator)) := by
  have hdefault {f f' : String → Eval String} (hf : ∀ text, (f text).Tracks e (f' text)) :
      (if separator.isUndefined then pure "," >>= f else toText separator >>= f).Tracks e
        (if (image e separator).isUndefined then pure "," >>= f' else toText (image e separator) >>= f') :=
    Follows.ite (by rw [Value.isUndefined_image]) (fun _ => (tracks_pure trivial).bind fun text _ => hf text)
      fun _ => (tracks_toText hseparator).bind fun text _ => hf text
  cases receiver with
  | object id =>
    have hbody (text : String) : (do
          if ← read fun m => m.joining.contains id then pure ""
          else within (.joining id) do joinElements text (← elementsOf (.object id)).toList true "" :
            Eval String).Tracks e
        (do
          if ← read fun m => m.joining.contains (e.object id) then pure ""
          else
            within (.joining (e.object id)) do
              joinElements text (← elementsOf (.object (e.object id))).toList true "") := by
      have hread : (read fun m => m.joining.contains id).Tracks e
          (read fun m => m.joining.contains (e.object id)) :=
        .read fun s s' h => ⟨trivial, by
          rw [h.joining]
          exact contains_image h.within_registers.2.2.2.2 hreceiver⟩
      have hframe : Within e (Frame.joining id) := hreceiver
      exact hread.bind fun _ _ => Follows.ite Iff.rfl (fun _ => .done trivial) fun _ =>
        .within hframe (fun h : false = true => nomatch h) (tracks_joinText hreceiver text)
    exact hdefault hbody
  | _ => exact hdefault fun text => tracks_joinText hreceiver text

/-! ## 5. Arguments of array functions -/

theorem tracks_deleteCount (hargs : Within e args) (size start : Nat) :
    (deleteCount args size start).Tracks e (deleteCount (image e args) size start) := by
  unfold deleteCount
  rw [size_image, argument_image]
  split
  · exact .done trivial
  · exact (tracks_checkBounds _).bind fun _ _ => .done trivial
  · refine (tracks_toInteger (within_argument hargs 1)).bind fun _ _ => ?_
    exact (tracks_checkBounds _).bind fun _ _ => .done trivial

theorem tracks_sourceValues {source : Value} (hsource : Within e source) :
    (sourceValues source).Tracks e (sourceValues (image e source)) := by
  cases source with
  | undefined | null => exact (tracks_display hsource).bind fun _ _ => follows_throwTypeError _
  | string s => exact tracks_iterate hsource "Array.from"
  | object id =>
    refine (tracks_object (.inl hsource)).bind fun o _ => ?_
    refine Follows.ite ?_ (fun _ => tracks_iterate hsource _) fun _ => tracks_listOf hsource
    rw [Object.elements_image, Object.mapEntries_image, Object.setEntries_image, isSome_image, isSome_image,
      isSome_image]
  | _ => exact tracks_listOf hsource

theorem tracks_constructorElements (hargs : Within e args) :
    (constructorElements args).Tracks e (constructorElements (image e args)) := by
  have hall : (pure args : Eval (Array Value)).Tracks e (pure (image e args)) := .done hargs
  unfold constructorElements
  rw [toList_image]
  cases args.toList with
  | nil => exact hall
  | cons v l =>
    cases l with
    | cons w l => cases v <;> exact hall
    | nil =>
      cases v with
      | number x =>
        refine Follows.ite Iff.rfl (fun _ => ?_) fun _ => follows_throwFault _ _
        have hblank : Within e (Array.replicate (Number.toNatural64 x) Value.undefined) :=
          within_replicate Value.within_undefined _
        exact follows_pure hblank (by simp [image_array])
      | _ => exact hall

theorem lastIndexIn_image (helements : Within e elements) {v : Value} (hv : Within e v) (start : Nat) :
    lastIndexIn (image e elements) (image e v) start = lastIndexIn elements v start := by
  have hindexed := Elements.within_indexed helements
  unfold lastIndexIn
  rw [Elements.indexed_image, image_list, List.filter_map, List.getLast?_map, Option.map_map]
  have hfilter : (Elements.indexed elements).filter
        ((fun entry : Nat × Value => entry.1 ≤ start && entry.2.strictEquals (image e v)) ∘ image e) =
      (Elements.indexed elements).filter fun entry => entry.1 ≤ start && entry.2.strictEquals v := by
    refine List.filter_congr fun entry hentry => ?_
    have hsame := Value.strictEquals_image (hindexed entry hentry).2 hv
    exact congrArg (decide (entry.1 ≤ start) && ·) hsame
  rw [hfilter]
  rfl

theorem tracks_lastStart (hargs : Within e args) (size : Nat) :
    (lastStart args size).Follows e (fun _ => True) (fun start => start) (lastStart (image e args) size) := by
  have hgiven := within_getElem? hargs 1
  unfold lastStart
  rw [getElem?_image]
  cases h : args[1]? with
  | none => exact .done trivial
  | some v =>
    refine (tracks_toInteger (hgiven v h)).bind fun n _ => ?_
    exact Follows.ite Iff.rfl (fun _ => .done trivial) fun _ => .done trivial

theorem tracks_placeOf {v : Value} (hv : Within e v) (size : Nat) :
    (placeOf v size).Follows e (fun _ => True) (fun place => place) (placeOf (image e v) size) :=
  (tracks_toInteger hv).bind fun _ _ => .done trivial

theorem image_indexOrMinusOne (i : Option Nat) : image e (indexOrMinusOne i) = indexOrMinusOne i := by
  cases i <;> rfl

theorem within_indexOrMinusOne (i : Option Nat) : Within e (indexOrMinusOne i) := by
  cases i <;> exact trivial

theorem tracks_index (i : Option Nat) :
    (pure (indexOrMinusOne i) : Eval Value).Tracks e (pure (indexOrMinusOne i)) :=
  follows_pure (within_indexOrMinusOne i) (image_indexOrMinusOne i).symm

end Eval

/-! ## 6. The functions -/

open Eval in
/-- The functions of `Array` that change their receiver do the same on mirrors. -/
theorem ArrayMethod.tracks_change (method : ArrayMethod) (hreceiver : Within e receiver) (hargs : Within e args) :
    (method.change receiver args).Tracks e (method.change (image e receiver) (image e args)) := by
  have hwrite (fits : Nat → Bool) {f f' : Array Value → Array Value}
      (hf : ∀ es, Within e es → Within e (f es) ∧ f' (image e es) = image e (f es)) :
      (do
        changeElementsIf receiver fits fun es => (f es, ())
        pure receiver : Eval Value).Tracks e
      (do
        changeElementsIf (image e receiver) fits fun es => (f' es, ())
        pure (image e receiver)) := by
    have hchange : (changeElementsIf receiver fits fun es => (f es, ())).Tracks e
        (changeElementsIf (image e receiver) fits fun es => (f' es, ())) :=
      follows_changeElementsIf hreceiver fits fun es hes => ⟨(hf es hes).1, trivial, congrArg (·, ()) (hf es hes).2⟩
    exact hchange.bind fun _ _ => .done hreceiver
  have hpush : (changeElements receiver fun es => (es ++ args, Value.ofNat (es.size + args.size))).Tracks e
      (changeElements (image e receiver) fun es => (es ++ image e args, .ofNat (es.size + (image e args).size))) := by
    refine follows_changeElements hreceiver fun es hes => ⟨within_appendArray hes hargs, trivial, ?_⟩
    rw [append_image, size_image, size_image]
    rfl
  unfold ArrayMethod.change
  rw [argument_image, argument_image, argument_image]
  cases method with
  | pop =>
    refine follows_changeElements hreceiver fun es hes => ⟨within_pop hes, ?_, ?_⟩
    · exact within_getD (fun v hv => hes v (Array.mem_of_back? hv)) Value.within_undefined
    · have hpop : (image e es).pop = image e es.pop := Array.map_pop.symm
      have hback : (image e es).back? = image e es.back? := Array.back?_map
      rw [hpop, hback]
      exact congrArg (image e es.pop, ·) (getD_image es.back? .undefined)
  | shift =>
    refine follows_changeElements hreceiver fun es hes => ⟨within_extract hes _ _, ?_, ?_⟩
    · exact within_getD (within_getElem? hes 0) Value.within_undefined
    · rw [size_image, extract_image, getElem?_image]
      exact congrArg (image e (es.extract 1 es.size), ·) (getD_image es[0]? .undefined)
  | unshift =>
    refine follows_changeElements hreceiver fun es hes => ⟨within_appendArray hargs hes, trivial, ?_⟩
    rw [append_image, size_image, size_image]
    rfl
  | splice =>
    refine (tracks_elementsOf hreceiver).bind fun es _ => ?_
    rw [size_image]
    refine (tracks_relativeArgument (within_argument hargs 0) es.size 0).bind fun start _ => ?_
    refine (tracks_deleteCount hargs es.size start).bind fun count _ => ?_
    refine Follows.bind (P := Within e) (g := image e) ?_ fun removed hremoved => tracks_newArray hremoved
    refine follows_changeElementsIf hreceiver _ fun es hes => ⟨?_, within_extract hes _ _, ?_⟩
    · exact Elements.within_splice hes (within_extract hargs _ _) _ _
    · dsimp only
      rw [size_image, size_image, extract_image, extract_image, Elements.splice_image]
      rfl
  | reverse =>
    refine hwrite _ fun es hes => ⟨fun v hv => hes v (Array.mem_reverse.mp hv), ?_⟩
    exact Array.map_reverse.symm
  | fill =>
    refine (tracks_elementsOf hreceiver).bind fun es _ => ?_
    rw [size_image]
    refine (tracks_relativeArgument (within_argument hargs 1) es.size 0).bind fun start _ => ?_
    refine (tracks_relativeArgument (within_argument hargs 2) es.size es.size).bind fun stop _ => ?_
    exact hwrite _ fun es hes =>
      ⟨Elements.within_fill hes (within_argument hargs 0) start stop, Elements.fill_image es _ start stop⟩
  | copyWithin =>
    refine (tracks_elementsOf hreceiver).bind fun es _ => ?_
    rw [size_image]
    refine (tracks_relativeArgument (within_argument hargs 0) es.size 0).bind fun target _ => ?_
    refine (tracks_relativeArgument (within_argument hargs 1) es.size 0).bind fun start _ => ?_
    refine (tracks_relativeArgument (within_argument hargs 2) es.size es.size).bind fun stop _ => ?_
    exact hwrite _ fun es' hes =>
      ⟨Elements.within_copyWithin hes _ target start stop, Elements.copyWithin_image es' _ target start stop⟩
  | sort =>
    refine (tracks_compareArgument hargs _).bind fun compare hcompare => ?_
    refine (tracks_elementsOf hreceiver).bind fun es hes => ?_
    exact (tracks_sortValues hes hcompare).bind fun sorted hsorted => hwrite _ fun _ _ => ⟨hsorted, rfl⟩
  | _ => exact hpush

open Eval in
/-- The functions of `Array` that call a function for each element do the same on mirrors. -/
theorem ArrayMethod.tracks_iterate (method : ArrayMethod) (hreceiver : Within e receiver) (hargs : Within e args) :
    (method.iterate receiver args).Tracks e (method.iterate (image e receiver) (image e args)) := by
  have hreceives := within_argument hargs 1
  have hcallback (name : String) := tracks_callbackArgument hargs name
  have hsearch (fromEnd : Bool) (name : String) := tracks_searchElements hreceiver hargs fromEnd name
  have hvisit {f : Value} (hf : Within e f) := visits_visit hf hreceives hreceiver
  have hmap {f : Value} (hf : Within e f) {l : List (Nat × Value)} (hl : Within e l) :
      (mapElements (visit f (argument args 1) receiver) l #[]).Tracks e
        (mapElements (visit (image e f) (image e (argument args 1)) (image e receiver)) (image e l) #[]) := by
    have hmap := tracks_mapElements (hvisit hf) hl within_empty
    rwa [image_emptyArray] at hmap
  unfold ArrayMethod.iterate
  rw [argument_image]
  cases method with
  | map =>
    refine (hcallback _).bind fun f hf => (tracks_elementsOf hreceiver).bind fun es hes => ?_
    rw [Elements.indexed_image]
    exact (hmap hf (Elements.within_indexed hes)).bind fun mapped hmapped => tracks_newArray hmapped
  | filter =>
    refine (hcallback _).bind fun f hf => (tracks_elementsOf hreceiver).bind fun es hes => ?_
    have hfilter := tracks_filterElements (hvisit hf) (Elements.within_indexed hes) within_empty
    rw [image_emptyArray] at hfilter
    rw [Elements.indexed_image]
    exact hfilter.bind fun kept hkept => tracks_newArray hkept
  | anyOf => exact (hsearch false _).bind fun found _ => follows_pure trivial (by rw [isSome_image]; rfl)
  | allOf =>
    refine (hcallback _).bind fun f hf => (tracks_elementsOf hreceiver).bind fun es hes => ?_
    rw [Elements.indexed_image]
    refine (tracks_findElement (hvisit hf) false (Elements.within_indexed hes)).bind fun found _ => ?_
    exact follows_pure trivial (by rw [isNone_image]; rfl)
  | find | findLast =>
    refine (hsearch _ _).bind fun found hfound => ?_
    cases found with
    | none => exact .done trivial
    | some entry => exact .done (within_some.mp hfound).2
  | findIndex | findLastIndex =>
    refine (hsearch _ _).bind fun found _ => ?_
    cases found <;> exact .done trivial
  | reduce =>
    refine (tracks_elementsOf hreceiver).bind fun es hes => ?_
    rw [Elements.indexed_image]
    exact tracks_reduceElements hreceiver hargs (Elements.within_indexed hes)
  | reduceRight =>
    refine (tracks_elementsOf hreceiver).bind fun es hes => ?_
    have hreduce := tracks_reduceElements hreceiver hargs (within_reverse (Elements.within_indexed hes))
    rwa [image_reverse, ← Elements.indexed_image] at hreduce
  | flatMap =>
    refine (hcallback _).bind fun f hf => (tracks_elementsOf hreceiver).bind fun es hes => ?_
    rw [Elements.indexed_image]
    refine (hmap hf (Elements.within_indexed hes)).bind fun mapped hmapped => ?_
    have hflat := tracks_flatten nestingLimit 1.0 (within_toList hmapped) within_empty
    rw [image_emptyArray] at hflat
    rw [toList_image]
    exact hflat.bind fun flat hflat => tracks_newArray hflat
  | _ =>
    refine (hcallback _).bind fun f hf => (tracks_elementsOf hreceiver).bind fun es hes => ?_
    rw [Elements.indexed_image]
    exact (hmap hf (Elements.within_indexed hes)).discard.bind fun _ _ => .done trivial

open Eval in
/-- The other functions of `Array` do the same on mirrors. -/
theorem ArrayMethod.tracks_access (method : ArrayMethod) (hreceiver : Within e receiver) (hargs : Within e args) :
    (method.access receiver args).Tracks e (method.access (image e receiver) (image e args)) := by
  have hfirst := within_argument hargs 0
  have hsecond := within_argument hargs 1
  have helements := tracks_elementsOf hreceiver
  unfold ArrayMethod.access
  rw [argument_image, argument_image]
  cases method with
  | elementAt =>
    refine helements.bind fun es hes => ?_
    rw [size_image]
    refine (tracks_placeOf hfirst es.size).bind fun place _ => ?_
    cases place with
    | none => exact .done trivial
    | some i =>
      refine follows_pure (within_getD (within_getElem? hes i) Value.within_undefined) ?_
      dsimp only [Option.bind_some]
      rw [getElem?_image]
      exact getD_image es[i]? .undefined
  | concat =>
    refine helements.bind fun es hes => ?_
    rw [toList_image]
    exact (tracks_flatten nestingLimit 1.0 (within_toList hargs) hes).bind fun flat hflat => tracks_newArray hflat
  | slice =>
    refine helements.bind fun es hes => ?_
    rw [size_image]
    refine (tracks_relativeArgument hfirst es.size 0).bind fun start _ => ?_
    refine (tracks_relativeArgument hsecond es.size es.size).bind fun stop _ => ?_
    rw [extract_image]
    exact tracks_newArray (within_extract hes _ _)
  | indexOf =>
    refine helements.bind fun es hes => ?_
    rw [size_image]
    refine (tracks_relativeArgument hsecond es.size 0).bind fun start _ => ?_
    have hfind := Elements.find?_indexed_image hes
      (p := fun i v => start ≤ i && v.strictEquals (argument args 0)) (q := fun i v => start ≤ i && v.strictEquals _)
      fun i v hv => congrArg (decide (start ≤ i) && ·) (Value.strictEquals_image hv hfirst)
    exact follows_pure (within_indexOrMinusOne _)
      ((congrArg indexOrMinusOne hfind).trans (image_indexOrMinusOne _).symm)
  | lastIndexOf =>
    refine helements.bind fun es hes => ?_
    refine Follows.ite (by rw [isEmpty_image]) (fun _ => tracks_index none) fun _ => ?_
    rw [size_image]
    refine (tracks_lastStart hargs es.size).bind fun start _ => ?_
    cases start with
    | none => exact tracks_index none
    | some start =>
      refine (tracks_checkBounds _).bind fun _ _ => ?_
      rw [lastIndexIn_image hes hfirst]
      exact tracks_index _
  | includes =>
    refine helements.bind fun es hes => ?_
    rw [size_image]
    refine (tracks_relativeArgument hsecond es.size 0).bind fun start _ => follows_pure trivial ?_
    rw [extract_image]
    exact congrArg Value.boolean
      (any_image (within_extract hes _ _) fun v hv => Value.sameValueZero_image hv hfirst)
  | join => exact (tracks_joinReceiver hreceiver hfirst).bind fun _ _ => .done trivial
  | toString =>
    refine (tracks_getNamed hreceiver "join").bind fun f hf => (tracks_isCallable hf).bind fun _ _ => ?_
    refine Follows.ite Iff.rfl (fun _ => tracks_call hf hreceiver within_empty (by simp)) fun _ => ?_
    exact (tracks_taggedText hreceiver).bind fun _ _ => .done trivial
  | toLocaleString => exact (tracks_joinReceiver hreceiver Value.within_undefined).bind fun _ _ => .done trivial
  | flat =>
    have hflatten (depth : Float) : (do
          let es ← elementsOf receiver
          newArray (← flatten nestingLimit depth es.toList #[]) : Eval Value).Tracks e
        (do
          let es ← elementsOf (image e receiver)
          newArray (← flatten nestingLimit depth es.toList #[])) := by
      refine helements.bind fun es hes => ?_
      have hflat := tracks_flatten nestingLimit depth (within_toList hes) within_empty
      rw [image_emptyArray] at hflat
      rw [toList_image]
      exact hflat.bind fun flat hflat => tracks_newArray hflat
    refine Follows.ite (by rw [Value.isUndefined_image]) (fun _ => ?_) fun _ => ?_
    · exact (tracks_pure trivial).bind fun depth _ => hflatten depth
    · exact (tracks_toInteger hfirst).bind fun depth _ => hflatten depth
  | keys =>
    refine helements.bind fun es _ => ?_
    have hkeys : Within e ((Array.range es.size).map Value.ofNat) := fun v hv => by
      obtain ⟨i, -, rfl⟩ := Array.mem_map.mp hv
      exact Value.within_ofNat i
    have htracks := tracks_newArray hkeys
    have himage : image e ((Array.range es.size).map Value.ofNat) = (Array.range es.size).map Value.ofNat := by
      rw [image_array, Array.map_map]
      rfl
    rw [himage] at htracks
    rwa [size_image]
  | values => exact helements.bind fun es hes => tracks_newArray hes
  | entries =>
    refine helements.bind fun es hes => ?_
    have hpairs : Within e ((Elements.indexed es).map fun entry => (Value.ofNat entry.1, entry.2)) :=
      fun pair hpair => by
        obtain ⟨entry, hentry, rfl⟩ := List.mem_map.mp hpair
        exact ⟨Value.within_ofNat _, (Elements.within_indexed hes entry hentry).2⟩
    have htracks := tracks_newPairs hpairs
    have himage : image e ((Elements.indexed es).map fun entry => (Value.ofNat entry.1, entry.2)) =
        (Elements.indexed (image e es)).map fun entry => (.ofNat entry.1, entry.2) := by
      rw [Elements.indexed_image, image_list, image_list, List.map_map, List.map_map]
      rfl
    rw [himage] at htracks
    exact htracks.bind fun pairs hpairs => tracks_newArray hpairs
  | toReversed =>
    refine helements.bind fun es hes => ?_
    have hreverse : Within e es.reverse := fun v hv => hes v (Array.mem_reverse.mp hv)
    have htracks := tracks_newArray hreverse
    rwa [image_array, Array.map_reverse] at htracks
  | toSorted =>
    refine (tracks_compareArgument hargs _).bind fun compare hcompare => helements.bind fun es hes => ?_
    exact (tracks_sortValues hes hcompare).bind fun sorted hsorted => tracks_newArray hsorted
  | toSpliced =>
    refine helements.bind fun es hes => ?_
    rw [size_image]
    refine (tracks_relativeArgument hfirst es.size 0).bind fun start _ => ?_
    refine (tracks_deleteCount hargs es.size start).bind fun count _ => (tracks_checkBounds _).bind fun _ _ => ?_
    rw [size_image, extract_image, Elements.splice_image]
    exact tracks_newArray (Elements.within_splice hes (within_extract hargs _ _) _ _)
  | _ =>
    refine helements.bind fun es hes => ?_
    rw [size_image]
    refine (tracks_toInteger hfirst).bind fun n _ => Follows.ite Iff.rfl (fun _ => follows_throwFault _ _) fun _ => ?_
    refine (tracks_checkBounds _).bind fun _ _ => ?_
    have htracks := tracks_newArray (within_set hes (Number.toNatural64 (absoluteIndex n es.size)) hsecond)
    rwa [image_array, Array.map_setIfInBounds] at htracks

open Eval in
/-- The functions of `Array` do the same on mirrors. -/
theorem ArrayMethod.tracks_run (method : ArrayMethod) (hreceiver : Within e receiver) (hargs : Within e args) :
    (method.run receiver args).Tracks e (method.run (image e receiver) (image e args)) := by
  have hfirst := within_argument hargs 0
  cases method with
  | make =>
    refine (tracks_constructorElements hargs).bind fun es hes => ?_
    refine (tracks_constructing? hreceiver).bind fun target htarget => ?_
    cases target with
    | none => exact tracks_newArray hes
    | some id =>
      have hid : e.Open id := within_some.mp htarget
      have hfill : (modifyObject id fun o => { o with sort := .array, elements := some es }).Tracks e
          (modifyObject (e.object id) fun o => { o with sort := .array, elements := some (image e es) }) :=
        tracks_modifyObject hid (Object.SetUp.become _ fun _ => ⟨_, _, _, _, _, rfl, fun _ => rfl⟩).written fun o ho =>
          have hslots : Within e { o with sort := .array, elements := some es } :=
            { ho with elements := within_some.mpr hes }
          ⟨hslots, rfl⟩
      exact hfill.bind fun _ _ => .done (Value.within_object hid)
  | isArray =>
    unfold ArrayMethod.run
    rw [argument_image]
    generalize argument args 0 = first at hfirst ⊢
    cases first with
    | object id =>
      exact (tracks_object (.inl hfirst)).bind fun o _ => follows_pure trivial (by rw [Object.isArray_image]; rfl)
    | _ => exact .done trivial
  | ofItems => exact tracks_newArray hargs
  | ofIterable =>
    unfold ArrayMethod.run
    rw [argument_image, argument_image, argument_image]
    refine (tracks_sourceValues hfirst).bind fun values hvalues => ?_
    have hf := within_argument hargs 1
    refine Follows.ite (by rw [Value.isUndefined_image]) (fun _ => tracks_newArray hvalues) fun _ => ?_
    refine (tracks_requireCallable hf _).bind fun _ _ => ?_
    have hvisit : Visits e
        (fun i v => callback (argument args 1) (argument args 2) #[v, .ofNat i])
        fun i v => callback (image e (argument args 1)) (image e (argument args 2)) #[v, .ofNat i] :=
      fun i _ hv => tracks_callback hf (within_argument hargs 2) (within_two hv (Value.within_ofNat i)) (by simp)
    have hmap := tracks_mapElements hvisit (Elements.within_indexed hvalues) within_empty
    rw [image_emptyArray] at hmap
    rw [Elements.indexed_image]
    exact hmap.bind fun mapped hmapped => tracks_newArray hmapped
  | push | pop | shift | unshift | splice | reverse | fill | copyWithin | sort =>
    dsimp only [ArrayMethod.run]
    exact ArrayMethod.tracks_change _ hreceiver hargs
  | forEach | map | filter | anyOf | allOf | find | findIndex | findLast | findLastIndex | reduce | reduceRight
  | flatMap =>
    dsimp only [ArrayMethod.run]
    exact ArrayMethod.tracks_iterate _ hreceiver hargs
  | _ =>
    dsimp only [ArrayMethod.run]
    exact ArrayMethod.tracks_access _ hreceiver hargs

end GuestScript
