import GuestScript.Proofs.Object.Ordinary

/-!
# The keys of an object

An object keeps its stored properties in one sequence, and what it lists is rebuilt from that sequence each time. This
module follows the sequence through every operation on own properties.

* `Text.index?_eq_some_iff`: a name is an index exactly when it is the decimal text of a number below the bound, so an
  index has one name.
* `Object.KeyChange` is all that an operation does to the stored keys: nothing, one more at the end, or one less. So no
  sequence of operations stores two properties under one key (`Object.distinct_operate`).

Symbols are compared by identity, so lists of keys are compared entry by entry (`SameKeys`).

An object keeps its elements apart from its other properties, so every name is first asked whether it is an index.
`Text.Numeral` says what the decimal text of a number is without the printer: decimal digits of ASCII, no zero in front
of another digit, and a value that is the sum of the digits by their places.

* `Text.numeral_iff`: the printer writes the numeral of a number, and there is no other one.
* `Object.filterMap_stringKeys`: what an object lists for its elements and units is read back as their places.
* `Text.index?_canonical`: the reader accepts the numerals of the numbers below `2 ^ 32 - 1` and nothing else, so it
  undoes the printer there.
-/

namespace GuestScript

variable {cs : List Char} {a b : Key} {before after : List Key} {o : Object}

/-! ## 1. Canonical indices -/

namespace Text

theorem digits?_eq_some_iff {n : Nat} :
    digits? cs = some n ↔ (∀ c ∈ cs, c.isDigit = true) ∧ Nat.ofDigitChars 10 cs 0 = n := by
  have hfold : cs.foldl (fun n c => n * 10 + (c.toNat - '0'.toNat)) 0 = Nat.ofDigitChars 10 cs 0 := by
    rw [Nat.ofDigitChars_eq_foldl]
    simp only [Nat.mul_comm]
  unfold digits?
  rw [hfold]
  split <;> simp_all

theorem digitChar_sub {c : Char} (h : c.isDigit = true) :
    c.toNat - '0'.toNat < 10 ∧ (c.toNat - '0'.toNat).digitChar = c := by
  obtain ⟨hlow, hhigh⟩ : 48 ≤ c.toNat ∧ c.toNat ≤ 57 := by
    simpa [Char.isDigit, UInt32.le_iff_toNat_le] using h
  have hzero : '0'.toNat = 48 := rfl
  refine ⟨by omega, Char.toNat_inj.mp ?_⟩
  rw [Nat.toNat_digitChar_of_lt_ten (by omega)]
  omega

/-- Digits without a leading zero are the decimal text of their number. -/
theorem toDigits_ofDigitChars (hdigits : ∀ c ∈ cs, c.isDigit = true) (hne : cs ≠ [])
    (hzero : ∀ c rest, cs ≠ '0' :: c :: rest) : Nat.toDigits 10 (Nat.ofDigitChars 10 cs 0) = cs := by
  induction cs using List.reverseRecOn with
  | nil => exact absurd rfl hne
  | append_singleton front c ih =>
    obtain ⟨hlt, hc⟩ := digitChar_sub (hdigits c (by simp))
    have hvalue : Nat.ofDigitChars 10 (front ++ [c]) 0 =
        10 * Nat.ofDigitChars 10 front 0 + (c.toNat - '0'.toNat) := by
      rw [Nat.ofDigitChars_append, Nat.ofDigitChars_cons, Nat.ofDigitChars_nil]
    rw [hvalue]
    cases front with
    | nil => exact (Nat.toDigits_of_lt_base (by simpa using hlt)).trans (by simpa using hc)
    | cons d rest =>
      have hfront := ih (fun c hc => hdigits c (List.mem_append_left _ hc)) (by simp) fun c' rest' h =>
        hzero c' (rest' ++ [c]) (by simp [h])
      have hpos : 0 < Nat.ofDigitChars 10 (d :: rest) 0 := by
        by_contra h
        rw [Nat.eq_zero_of_not_pos h, Nat.toDigits_zero] at hfront
        exact hzero c [] (by simp [← hfront])
      rw [← Nat.toDigits_append_toDigits (by decide) hpos hlt, hfront, Nat.toDigits_of_lt_base hlt, hc]

theorem head?_toDigits {n : Nat} (hn : n ≠ 0) : (Nat.toDigits 10 n).head? ≠ some '0' := by
  induction n using Nat.strongRecOn with
  | _ n ih =>
    by_cases h : n < 10
    · simpa [Nat.toDigits_of_lt_base h] using hn
    · rw [Nat.toDigits_of_base_le (by decide) (by omega), List.head?_append_of_ne_nil _ Nat.toDigits_ne_nil]
      exact ih (n / 10) (by omega) (by omega)

theorem utf8Size_digit {c : Char} (h : c.isDigit = true) : c.utf8Size = 1 := by
  rw [Char.isDigit, Bool.and_eq_true, decide_eq_true_eq, decide_eq_true_eq] at h
  have hnine : '9'.val ≤ 127 := by decide
  exact Char.utf8Size_eq_one_iff.mpr (UInt32.le_trans h.2 hnine)

theorem utf8Len_digits (h : ∀ c ∈ cs, c.isDigit = true) : String.utf8Len cs = cs.length := by
  induction cs with
  | nil => rfl
  | cons c rest ih =>
    rw [String.utf8Len_cons, ih fun c hc => h c (List.mem_cons_of_mem _ hc), utf8Size_digit (h c List.mem_cons_self),
      List.length_cons]

/-- A name is an index exactly when it is the decimal text of a number below the bound. -/
theorem index?_eq_some_iff {name : String} {i : Nat} :
    index? name = some i ↔ name = toString i ∧ i < indexBound := by
  rw [Nat.toString_eq_ofList_toDigits]
  constructor
  · intro h
    unfold index? at h
    split_ifs at h with hsize
    split at h
    · cases h
    · rename_i hlead
      split at h
      · rename_i n hn
        obtain ⟨hdigits, rfl⟩ := digits?_eq_some_iff.mp hn
        split_ifs at h with hbound
        obtain rfl := Option.some.inj h
        have hne : name.toList ≠ [] := by
          rintro hnil
          rw [String.toList_eq_nil_iff] at hnil
          exact hsize (by rw [hnil]; rfl)
        exact ⟨by rw [toDigits_ofDigitChars hdigits hne hlead, String.ofList_toList], hbound⟩
      · cases h
  · rintro ⟨rfl, hbound⟩
    have hdigits : ∀ c ∈ Nat.toDigits 10 i, c.isDigit = true := fun c hc =>
      Nat.isDigit_of_mem_toDigits (by decide) (by decide) hc
    have hpos : 0 < (Nat.toDigits 10 i).length := Nat.length_toDigits_pos
    have hlen : (Nat.toDigits 10 i).length ≤ 10 :=
      (Nat.length_toDigits_le_iff (by decide) (by decide)).mpr (hbound.trans (by decide))
    have hvalue : digits? (Nat.toDigits 10 i) = some i :=
      digits?_eq_some_iff.mpr ⟨hdigits, Nat.ofDigitChars_ten_toDigits⟩
    have hsize := utf8Len_digits hdigits
    rw [index?, String.utf8ByteSize_ofList, String.toList_ofList, hsize, if_neg (by simp; omega)]
    split
    · rename_i c rest h
      exact absurd (congrArg List.head? h) (head?_toDigits (by rintro rfl; simp at h))
    · simp only [hvalue]
      rw [if_pos hbound]

end Text

theorem Key.eq_of_name? {key : Key} {name : String} (h : key.name? = some name) : key = .string name := by
  cases key with
  | string s => exact congrArg Key.string (Option.some.inj h)
  | symbol s => cases h

namespace Object

/-! ## 2. Operations -/

/-- An operation on the own properties of an object. -/
inductive Operation where
  /-- Define a property as far as the object takes it. -/
  | define (key : Key) (d : Descriptor)
  /-- Put a property in without asking. -/
  | insert (name : String) (p : Property)
  | insertSymbol (s : Symbol) (p : Property)
  | delete (key : Key)
  /-- Give an array other elements, as a change of its length and the methods that work in place do. -/
  | replace (elements : Array Value)

namespace Operation

/-- The key that an operation is about. -/
def key? : Operation → Option Key
  | define key _ | delete key => some key
  | insert name _ => some (.string name)
  | insertSymbol s _ => some (.symbol s)
  | replace _ => none

/-- Whether an operation can add a stored property; otherwise it can take one away. -/
def grows : Operation → Bool
  | delete _ => false
  | _ => true

/-- What an operation makes of an object. -/
def apply (o : Object) : Operation → Object
  | define key d => (o.define key d).1
  | insert name p => o.insert name p
  | insertSymbol s p => o.store (.symbol s) p
  | delete key => (o.delete key).1
  | replace elements => { o with elements := o.elements.map fun _ => elements }

end Operation

/-- The object after some operations, one after the other. -/
def operate (o : Object) (operations : List Operation) : Object :=
  operations.foldl Operation.apply o

/-- The keys of the stored properties in their order. -/
def keys (o : Object) : List Key :=
  o.properties.toList.map Prod.fst

/-- What an operation does to the keys of the stored properties: they are the same ones, or the operation's key is new
and comes last, or it is gone. The flag tells operations that can add a key from those that can take one away. -/
inductive KeyChange (before after : List Key) : Option Key → Bool → Prop where
  | same {key : Option Key} {grows : Bool} (h : List.Forall₂ (fun a b => a.same b = true) before after) :
    KeyChange before after key grows
  | added {key : Key} (hnew : ∀ k ∈ before, k.same key = false) (h : after = before ++ [key]) :
    KeyChange before after (some key) true
  | gone {key k : Key} {front back : List Key} (hk : k.same key = true) (hbefore : before = front ++ k :: back)
      (hafter : after = front ++ back) : KeyChange before after (some key) false

theorem KeyChange.refl (keys : List Key) (key : Option Key) (grows : Bool) : KeyChange keys keys key grows :=
  .same (List.forall₂_same.mpr fun k _ => k.same_self)

theorem forall₂_same_replace {front back : List Key} (h : a.same b = true) :
    List.Forall₂ (fun a b => a.same b = true) (front ++ a :: back) (front ++ b :: back) :=
  List.rel_append (List.forall₂_same.mpr fun k _ => k.same_self)
    (.cons h (List.forall₂_same.mpr fun k _ => k.same_self))

theorem keyChange_store (o : Object) (key : Key) (p : Property) :
    KeyChange o.keys (o.store key p).keys (some key) true := by
  rcases o.store_cases key p with ⟨hnone, hstore⟩ | ⟨front, e, back, hsplit, hkey, -, hstore⟩
  · refine .added (fun k hk => ?_) (by simp [hstore, keys])
    obtain ⟨entry, hentry, rfl⟩ := List.mem_map.mp hk
    exact hnone entry hentry
  · refine .same ?_
    simp only [hstore, keys, hsplit, List.map_append, List.map_cons]
    exact forall₂_same_replace hkey

theorem keyChange_defineStored (o : Object) (key : Key) (d : Descriptor) :
    KeyChange o.keys (o.defineStored key d).1.keys (some key) true := by
  rw [defineStored_eq]
  cases o.stored? key with
  | some current =>
    dsimp only
    split_ifs
    · exact .refl _ _ _
    · exact o.keyChange_store key _
  | none =>
    dsimp only
    split_ifs
    · exact o.keyChange_store key _
    · exact .refl _ _ _

theorem keyChange_deleteStored (o : Object) (key : Key) :
    KeyChange o.keys (o.deleteStored key).1.keys (some key) false := by
  rcases o.deleteStored_cases key with ⟨-, hdelete⟩ | ⟨front, e, back, hsplit, hkey, -, hdelete⟩
  · rw [hdelete]
    exact .refl _ _ _
  · rw [hdelete]
    split_ifs
    · exact .gone hkey (by simp [keys, hsplit]; rfl) (by simp [keys])
    · exact .refl _ _ _

theorem keyChange_defineNamed (o : Object) (name : String) (d : Descriptor) :
    KeyChange o.keys (o.defineNamed name d).1.keys (some (.string name)) true := by
  unfold defineNamed
  split
  · split
    · exact .refl _ _ _
    · exact o.keyChange_defineStored _ d
  · exact o.keyChange_defineStored _ d

theorem keyChange_deleteNamed (o : Object) (name : String) :
    KeyChange o.keys (o.deleteNamed name).1.keys (some (.string name)) false := by
  unfold deleteNamed
  split
  · split
    · exact .refl _ _ _
    · exact o.keyChange_deleteStored _
  · exact o.keyChange_deleteStored _

theorem keyChange_define (o : Object) (key : Key) (d : Descriptor) :
    KeyChange o.keys (o.define key d).1.keys (some key) true := by
  cases key with
  | symbol s => exact o.keyChange_defineStored _ d
  | string name =>
    have hnamed := o.keyChange_defineNamed name d
    unfold define
    cases o.elements with
    | none => exact hnamed
    | some elements =>
      dsimp only
      split
      · split
        · exact .refl _ _ _
        · unfold defineLength
          split
          · split <;> exact .refl _ _ _
          · exact .refl _ _ _
      · split
        · exact hnamed
        · split
          · exact .refl _ _ _
          · unfold defineElement
            split_ifs
            · exact hnamed
            all_goals first | exact .refl _ _ _ | exact hnamed

theorem keyChange_delete (o : Object) (key : Key) :
    KeyChange o.keys (o.delete key).1.keys (some key) false := by
  cases key with
  | symbol s => exact o.keyChange_deleteStored _
  | string name =>
    have hnamed := o.keyChange_deleteNamed name
    unfold delete
    cases o.elements with
    | none => exact hnamed
    | some elements =>
      dsimp only
      split
      · exact .refl _ _ _
      · split
        · exact hnamed
        · split_ifs
          · exact .refl _ _ _
          · exact .refl _ _ _
          · exact hnamed

/-- What an operation does to the stored keys. -/
theorem keyChange_apply (o : Object) (op : Operation) : KeyChange o.keys (op.apply o).keys op.key? op.grows := by
  cases op with
  | define key d => exact o.keyChange_define key d
  | insert name p =>
    change KeyChange o.keys (o.insert name p).keys _ _
    unfold insert
    split
    · split
      · exact .refl _ _ _
      · exact o.keyChange_store _ p
    · exact o.keyChange_store _ p
  | insertSymbol s p => exact o.keyChange_store _ p
  | delete key => exact o.keyChange_delete key
  | replace elements => exact .refl _ _ _

/-! ## 3. What is stored -/

/-- Whether two lists have the same keys at the same places. -/
abbrev SameKeys : List Key → List Key → Prop :=
  List.Forall₂ fun a b => a.same b = true

/-- Whether no two of some keys are the same. -/
abbrev DistinctKeys : List Key → Prop :=
  List.Pairwise fun a b => a.same b = false

/-- Whether a key is one of some keys. -/
def holds (keys : List Key) (key : Key) : Bool :=
  keys.any fun k => k.same key

theorem SameKeys.holds_eq (h : SameKeys before after) (key : Key) : holds before key = holds after key := by
  induction h with
  | nil => rfl
  | cons hk _ ih =>
    rw [holds, List.any_cons, Key.same_congr hk]
    exact congrArg _ ih

theorem SameKeys.trans {a b c : List Key} (hab : SameKeys a b) (hbc : SameKeys b c) : SameKeys a c := by
  induction hab generalizing c with
  | nil => exact hbc
  | cons h _ ih =>
    cases hbc with
    | cons h' htail => exact .cons ((Key.same_congr h _).trans h') (ih htail)

theorem holds_congr (h : a.same b = true) (keys : List Key) : holds keys a = holds keys b := by
  rw [holds, holds]
  congr 1
  funext k
  rw [Key.same_comm, Key.same_congr h, Key.same_comm]

theorem SameKeys.filter (h : SameKeys before after) (keys : List Key) :
    SameKeys (before.filter (holds keys)) (after.filter (holds keys)) := by
  exact List.rel_filter (fun a b hab => by dsimp only; rw [holds_congr hab]) h

theorem holds_append (front back : List Key) (key : Key) :
    holds (front ++ back) key = (holds front key || holds back key) :=
  List.any_append

theorem holds_of_mem {keys : List Key} {key : Key} (h : key ∈ keys) : holds keys key = true :=
  List.any_eq_true.mpr ⟨key, h, key.same_self⟩

theorem distinctKeys_cons {key : Key} {keys : List Key} :
    DistinctKeys (key :: keys) ↔ holds keys key = false ∧ DistinctKeys keys := by
  rw [DistinctKeys, List.pairwise_cons, holds, List.any_eq_false]
  simp only [Bool.not_eq_true, Key.same_comm key]

theorem SameKeys.distinct (h : SameKeys before after) (hd : DistinctKeys before) : DistinctKeys after := by
  induction h with
  | nil => exact .nil
  | @cons a b before after hk htail ih =>
    rw [distinctKeys_cons] at hd ⊢
    refine ⟨?_, ih hd.2⟩
    rw [← SameKeys.holds_eq htail, ← holds_congr hk, hd.1]

/-- No change makes two keys the same. -/
theorem KeyChange.distinct {key : Option Key} {grows : Bool} (h : KeyChange before after key grows)
    (hd : DistinctKeys before) : DistinctKeys after := by
  cases h with
  | same h => exact SameKeys.distinct h hd
  | added hnew hafter =>
    rw [hafter]
    exact List.pairwise_append.mpr ⟨hd, List.pairwise_singleton _ _, by simpa using hnew⟩
  | gone hk hbefore hafter =>
    rw [hbefore] at hd
    rw [hafter]
    exact hd.sublist (List.Sublist.append_left (List.sublist_cons_self _ _) _)

theorem distinct_operate (hd : DistinctKeys o.keys) (operations : List Operation) :
    DistinctKeys (o.operate operations).keys := by
  induction operations generalizing o with
  | nil => exact hd
  | cons op rest ih => exact ih ((o.keyChange_apply op).distinct hd)

theorem stored?_isSome (o : Object) (key : Key) : (o.stored? key).isSome = holds o.keys key := by
  rw [stored?_eq, under?, Option.isSome_map, holds, keys, List.any_map]
  rw [Bool.eq_iff_iff, List.find?_isSome, List.any_eq_true]
  rfl

/-! ## 4. The order of keys -/

/-- A name that is no index. -/
def isOtherName (key : Key) : Bool :=
  key.name?.any fun name => (Text.index? name).isNone

def isSymbol (key : Key) : Bool :=
  key.name?.isNone

/-- An object without virtual properties. -/
structure Plain (o : Object) : Prop where
  elements : o.elements = none
  text : o.text? = none

namespace Plain

variable {o : Object} (ho : o.Plain)
include ho

theorem hasOwn_eq (key : Key) : o.hasOwn key = holds o.keys key := by
  rw [← stored?_isSome, hasOwn]
  cases key with
  | symbol s => rfl
  | string name => simp only [own?, virtual?, ho.elements, ho.text]

theorem withProperties (properties : Array (Key × Property)) : Plain { o with properties := properties } :=
  ⟨ho.elements, ho.text⟩

theorem store (key : Key) (p : Property) : (o.store key p).Plain := by
  unfold Object.store
  split <;> exact ho.withProperties _

theorem apply (op : Operation) : (op.apply o).Plain := by
  cases op with
  | define key d =>
    have h : o.define key d = o.defineStored key d := by
      cases key with
      | symbol s => rfl
      | string name => simp only [define, defineNamed, ho.elements, ho.text]
    change (o.define key d).1.Plain
    rw [h]
    rcases o.defineStored_cases key d with ⟨-, h⟩ | ⟨_, _, _, -, -, -, h⟩
    · rw [h]
      split_ifs <;> first | exact ho | exact ho.withProperties _
    · rw [h]
      split_ifs <;> first | exact ho | exact ho.withProperties _
  | insert name p =>
    have h : o.insert name p = o.store (.string name) p := by
      simp only [insert, ho.elements]
    change (o.insert name p).Plain
    rw [h]
    exact ho.store _ p
  | insertSymbol s p => exact ho.store _ p
  | delete key =>
    have h : o.delete key = o.deleteStored key := by
      cases key with
      | symbol s => rfl
      | string name => simp only [delete, deleteNamed, ho.elements, ho.text]
    change (o.delete key).1.Plain
    rw [h]
    rcases o.deleteStored_cases key with ⟨-, h⟩ | ⟨_, _, _, -, -, -, h⟩
    · rw [h]
      exact ho
    · rw [h]
      split_ifs
      · exact ho.withProperties _
      · exact ho
  | replace elements => exact ⟨by simp [Operation.apply.eq_def, ho.elements], ho.text⟩

end Plain

/-- What is dropped and added when keys change is what is gone and new. -/
theorem KeyChange.sameKeys {known : List Key} {key : Option Key} {grows : Bool} (h : KeyChange before after key grows)
    (hd : DistinctKeys before) (hknown : SameKeys known before) :
    SameKeys (known.filter (holds after) ++ key.toList.filter fun k => holds after k && !holds before k) after := by
  have hkept := SameKeys.filter hknown after
  cases h with
  | same h =>
    have hall : before.filter (holds after) = before := List.filter_eq_self.mpr fun k hk => by
      rw [← SameKeys.holds_eq h, holds_of_mem hk]
    have hnone : (key.toList.filter fun k => holds after k && !holds before k) = [] := by
      simp [SameKeys.holds_eq h]
    rw [hall] at hkept
    rw [hnone, List.append_nil]
    exact SameKeys.trans hkept h
  | @added key hnew hafter =>
    subst hafter
    have hbefore : holds before key = false := by
      rw [holds, List.any_eq_false]
      simpa using hnew
    have hall : before.filter (holds (before ++ [key])) = before := List.filter_eq_self.mpr fun k hk => by
      rw [holds_append, holds_of_mem hk, Bool.true_or]
    have hkey : holds (before ++ [key]) key = true := holds_of_mem (by simp)
    have hadded : ((some key).toList.filter fun k => holds (before ++ [key]) k && !holds before k) = [key] := by
      simp [hkey, hbefore]
    rw [hall] at hkept
    rw [hadded]
    exact List.rel_append hkept (.cons key.same_self .nil)
  | @gone key k front back hk hbefore hafter =>
    subst hbefore hafter
    have hother : holds (front ++ back) k = false :=
      (distinctKeys_cons.mp ((List.perm_middle.pairwise_iff fun {a b} h => (b.same_comm a).trans h).mp hd)).1
    have hgone : holds (front ++ back) key = false := (holds_congr hk _).symm.trans hother
    have hall : (front ++ k :: back).filter (holds (front ++ back)) = front ++ back := by
      have hheld (k' : Key) (hk' : k' ∈ front ++ back) := holds_of_mem hk'
      rw [List.filter_append, List.filter_cons_of_neg (by simp [hother]), ← List.filter_append,
        List.filter_eq_self.mpr hheld]
    have hnone : ((some key).toList.filter fun k' =>
        holds (front ++ back) k' && !holds (front ++ k :: back) k') = [] := by
      simp [hgone]
    rw [hall] at hkept
    rw [hnone, List.append_nil]
    exact hkept

namespace Plain

variable {o : Object}

theorem operate (ho : o.Plain) (operations : List Operation) : (o.operate operations).Plain := by
  induction operations generalizing o with
  | nil => exact ho
  | cons op rest ih => exact ih (ho.apply op)

end Plain

/-- The keys of the elements of an array. -/
def elementKeys (o : Object) : List Key :=
  (List.range ((o.elements.map Array.size).getD 0)).map fun i => .string (toString i)

/-- The key of the length of an array. -/
def lengthKeys (o : Object) : List Key :=
  if o.elements.isSome then [.string "length"] else []

/-- The sequence of keys that an object lists. -/
theorem ownKeys_eq (htext : o.text? = none) :
    o.ownKeys = o.elementKeys ++ (o.indexKeys.map fun p => .string p.2) ++ o.lengthKeys ++
      o.keys.filter isOtherName ++ o.keys.filter isSymbol := by
  have hnames : o.nameKeys.map Key.string = o.keys.filter isOtherName := by
    rw [nameKeys, keys]
    induction o.properties.toList with
    | nil => rfl
    | cons e rest ih =>
      obtain ⟨key, p⟩ := e
      cases key with
      | symbol s => simpa [Key.name?, isOtherName] using ih
      | string name =>
        cases h : Text.index? name <;> simpa [Key.name?, isOtherName, h, Option.filter] using ih
  have hsymbols : o.symbolKeys.map Key.symbol = o.keys.filter isSymbol := by
    rw [symbolKeys, keys]
    induction o.properties.toList with
    | nil => rfl
    | cons e rest ih =>
      obtain ⟨key, p⟩ := e
      cases key with
      | symbol s => exact congrArg (Key.symbol s :: ·) ih
      | string name => exact ih
  have hlength : o.lengthKeys = (if o.elements.isSome then ["length"] else []).map Key.string := by
    rw [lengthKeys]
    split <;> rfl
  rw [ownKeys, ← hnames, ← hsymbols, hlength, elementKeys]
  simp [stringKeys, htext, Function.comp_def]

/-- A name that is an index. -/
def isIndexName (key : Key) : Bool :=
  key.name?.any fun name => (Text.index? name).isSome

theorem filter_perm (keys : List Key) :
    (keys.filter isIndexName ++ keys.filter isOtherName ++ keys.filter isSymbol).Perm keys := by
  induction keys with
  | nil => rfl
  | cons key rest ih =>
    cases key with
    | symbol s => exact List.perm_middle.trans (ih.cons _)
    | string name =>
      cases h : Text.index? name with
      | some i =>
        have h₁ : isIndexName (.string name) = true := by simp [isIndexName, Key.name?, h]
        have h₂ : isOtherName (.string name) = false := by simp [isOtherName, Key.name?, h]
        have h₃ : isSymbol (.string name) = false := rfl
        simpa [List.filter_cons, h₁, h₂, h₃] using ih
      | none =>
        have h₁ : isIndexName (.string name) = false := by simp [isIndexName, Key.name?, h]
        have h₂ : isOtherName (.string name) = true := by simp [isOtherName, Key.name?, h]
        have h₃ : isSymbol (.string name) = false := rfl
        simp only [List.filter_cons, h₁, h₂, h₃, if_true]
        simp only [List.append_assoc, List.cons_append] at ih ⊢
        exact List.perm_middle.trans (ih.cons _)

theorem indexKeys_perm (o : Object) :
    (o.indexKeys.map fun p => Key.string p.2).Perm (o.keys.filter isIndexName) := by
  refine ((List.mergeSort_perm _ _).map _).trans (List.Perm.of_eq ?_)
  rw [keys]
  induction o.properties.toList with
  | nil => rfl
  | cons e rest ih =>
    obtain ⟨key, p⟩ := e
    cases key with
    | symbol s => simpa [Key.name?, isIndexName] using ih
    | string name => cases h : Text.index? name <;> simpa [Key.name?, isIndexName, h] using ih

/-- An object lists the keys of what is virtual and of what is stored. -/
theorem ownKeys_perm (htext : o.text? = none) : o.ownKeys.Perm (o.elementKeys ++ o.lengthKeys ++ o.keys) := by
  have hstored := ((o.indexKeys_perm.append_right _).append_right _).trans (filter_perm o.keys)
  rw [ownKeys_eq htext]
  refine List.Perm.trans ?_ (hstored.append_left _)
  simp only [List.append_assoc]
  refine List.Perm.append_left _ ?_
  rw [← List.append_assoc, ← List.append_assoc o.lengthKeys]
  exact List.perm_append_comm.append_right _

theorem Plain.virtualKeys_eq (ho : o.Plain) : o.elementKeys = [] ∧ o.lengthKeys = [] := by
  simp [elementKeys, lengthKeys, ho.elements]

theorem Plain.ownKeys_perm (ho : o.Plain) : o.ownKeys.Perm o.keys := by
  have h := Object.ownKeys_perm ho.text
  rwa [ho.virtualKeys_eq.1, ho.virtualKeys_eq.2] at h

theorem mem_indexKeys {p : Nat × String} (h : p ∈ o.indexKeys) : Text.index? p.2 = some p.1 := by
  obtain ⟨entry, -, hentry⟩ := List.mem_filterMap.mp ((List.mergeSort_perm _ _).mem_iff.mp h)
  obtain ⟨name, -, hname⟩ := Option.bind_eq_some_iff.mp hentry
  obtain ⟨i, hi, rfl⟩ := Option.map_eq_some_iff.mp hname
  exact hi

/-- The indices that an object lists ascend. -/
theorem indexKeys_ascend (hd : DistinctKeys o.keys) : (o.indexKeys.map Prod.fst).Pairwise (· < ·) := by
  have hle : o.indexKeys.Pairwise fun a b => a.1 ≤ b.1 := by
    have h := @List.pairwise_mergeSort _ (fun a b : Nat × String => decide (a.1 ≤ b.1))
      (by simpa using fun a b c => Nat.le_trans) (by simpa using fun a b => Nat.le_total a b)
      (o.properties.toList.filterMap fun entry =>
        entry.1.name?.bind fun name => (Text.index? name).map fun i => (i, name))
    exact h.imp of_decide_eq_true
  have hne : (o.indexKeys.map fun p => Key.string p.2).Pairwise fun a b => a.same b = false :=
    (o.indexKeys_perm.pairwise_iff fun {a b} h => (b.same_comm a).trans h).mpr (hd.filter _)
  rw [List.pairwise_map] at hne ⊢
  refine (hle.and hne).imp_of_mem fun {a b} ha hb h => Nat.lt_of_le_of_ne h.1 fun heq => ?_
  obtain ⟨haname, -⟩ := Text.index?_eq_some_iff.mp (mem_indexKeys ha)
  obtain ⟨hbname, -⟩ := Text.index?_eq_some_iff.mp (mem_indexKeys hb)
  rw [haname, hbname, heq, Key.same_self] at h
  exact Bool.true_eq_false_eq_False h.2

theorem isOtherName_congr (h : a.same b = true) : isOtherName a = isOtherName b := by
  cases a <;> cases b <;> simp_all [Key.same, isOtherName, Key.name?]

theorem isSymbol_congr (h : a.same b = true) : isSymbol a = isSymbol b := by
  cases a <;> cases b <;> simp_all [Key.same, isSymbol, Key.name?]

end Object

namespace Text

/-! ## 5. Decimal numerals -/

/-- A text is the decimal numeral of a number. -/
structure Numeral (s : String) (i : Nat) : Prop where
  nonempty : s ≠ ""
  digits : ∀ c ∈ s.toList, '0'.toNat ≤ c.toNat ∧ c.toNat ≤ '9'.toNat
  /-- A zero stands in front only if it is the whole text. -/
  leading : ∀ rest, s.toList = '0' :: rest → rest = []
  value : Nat.ofDigits 10 (s.toList.reverse.map fun c => c.toNat - '0'.toNat) = i

theorem ofDigits_reverse (cs : List Char) :
    Nat.ofDigits 10 (cs.reverse.map fun c => c.toNat - '0'.toNat) = Nat.ofDigitChars 10 cs 0 := by
  induction cs using List.reverseRecOn with
  | nil => rfl
  | append_singleton front c ih =>
    rw [List.reverse_concat, List.map_cons, Nat.ofDigits_cons, ih, Nat.ofDigitChars_append, Nat.ofDigitChars_cons,
      Nat.ofDigitChars_nil]
    exact Nat.add_comm _ _

theorem isDigit_iff (c : Char) : c.isDigit = true ↔ '0'.toNat ≤ c.toNat ∧ c.toNat ≤ '9'.toNat := by
  simp [Char.isDigit, UInt32.le_iff_toNat_le]

/-- **Every number has one decimal numeral**, the one that is printed. -/
theorem numeral_iff {s : String} {i : Nat} : Numeral s i ↔ s = toString i := by
  rw [Nat.toString_eq_ofList_toDigits]
  constructor
  · intro h
    have hdigits : ∀ c ∈ s.toList, c.isDigit = true := fun c hc => (isDigit_iff c).mpr (h.digits c hc)
    have hne : s.toList ≠ [] := fun hnil => h.nonempty (String.toList_eq_nil_iff.mp hnil)
    have hvalue : Nat.ofDigitChars 10 s.toList 0 = i := (ofDigits_reverse s.toList).symm.trans h.value
    rw [← hvalue, toDigits_ofDigitChars hdigits hne fun c rest hlead => by simpa using h.leading _ hlead,
      String.ofList_toList]
  · rintro rfl
    refine ⟨fun hempty => ?_, fun c hc => ?_, fun rest hlead => ?_, ?_⟩
    · exact (Nat.toDigits_ne_nil (b := 10) (n := i)) (by simpa using congrArg String.toList hempty)
    · rw [String.toList_ofList] at hc
      exact (isDigit_iff c).mp (Nat.isDigit_of_mem_toDigits (by decide) (by decide) hc)
    · rw [String.toList_ofList] at hlead
      have hzero : i = 0 := by
        by_contra hi
        exact head?_toDigits hi (by rw [hlead, List.head?_cons])
      subst hzero
      exact (List.cons.inj hlead).2.symm
    · rw [String.toList_ofList, ofDigits_reverse, Nat.ofDigitChars_ten_toDigits]

theorem index?_printed (i : Nat) : index? (toString i) = if i < indexBound then some i else none := by
  split
  case isTrue h => exact index?_eq_some_iff.mpr ⟨rfl, h⟩
  case isFalse h =>
    refine Option.eq_none_iff_forall_ne_some.mpr fun j hj => h ?_
    obtain ⟨hij, hj⟩ := index?_eq_some_iff.mp hj
    exact (Nat.repr_injective hij).symm ▸ hj

end Text

/-! ## 6. What an object lists -/

namespace Object

theorem filterMap_printed {n : Nat} (h : n ≤ Text.indexBound) :
    ((List.range n).map toString).filterMap Text.index? = List.range n := by
  have hread : ∀ i ∈ List.range n, (Text.index? ∘ toString) i = some i := fun i hi => by
    rw [Function.comp_apply, Text.index?_printed, if_pos ((List.mem_range.mp hi).trans_le h)]
  rw [List.filterMap_map, List.filterMap_congr hread, List.filterMap_some]

/-- **The listed places are read back.** The names that an object makes up for its elements and its units, and those of
its stored indices, stand for the places and the indices that they were printed from; no other name is an index. -/
theorem filterMap_stringKeys {o : Object} (helements : (o.elements.map Array.size).getD 0 ≤ Text.indexBound)
    (hunits : (o.text?.map Text.size).getD 0 ≤ Text.indexBound) :
    o.stringKeys.filterMap Text.index? =
      List.range ((o.elements.map Array.size).getD 0) ++ List.range ((o.text?.map Text.size).getD 0) ++
        o.indexKeys.map Prod.fst := by
  have hstored : (o.indexKeys.map Prod.snd).filterMap Text.index? = o.indexKeys.map Prod.fst := by
    rw [List.filterMap_map, ← List.filterMap_eq_map]
    exact List.filterMap_congr fun p hp => mem_indexKeys hp
  have hlength : (if o.elements.isSome || o.text?.isSome then ["length"] else []).filterMap Text.index? = [] := by
    split <;> rfl
  have hnames : o.nameKeys.filterMap Text.index? = [] := by
    refine List.filterMap_eq_nil_iff.mpr fun name hname => ?_
    obtain ⟨entry, -, hentry⟩ := List.mem_filterMap.mp hname
    exact Option.isNone_iff_eq_none.mp (Option.filter_eq_some_iff.mp hentry).2
  simp only [stringKeys, List.filterMap_append]
  rw [filterMap_printed helements, filterMap_printed hunits, hstored, hlength, hnames, List.append_nil, List.append_nil]

end Object

/-! ## 7. Canonical indices -/

/-- **Canonical indices.** A name is an index exactly when it is the numeral of a number below `2 ^ 32 - 1`. So an index
has one name, and the reader undoes the printer: on the keys that functions use for the places of a list, and on the
names that an object lists. -/
theorem Text.index?_canonical (s : String) (i : Nat) :
    (index? s = some i ↔ i < 2 ^ 32 - 1 ∧ Numeral s i) ∧
      (∀ t, index? s = some i → index? t = some i → s = t) ∧
      (index? s = some i → Key.index i = .string s) ∧
      (i < 2 ^ 32 - 1 → (Key.index i).name?.bind index? = some i) ∧
      ∀ o : Object, (o.elements.map Array.size).getD 0 ≤ 2 ^ 32 - 1 → (o.text?.map Text.size).getD 0 ≤ 2 ^ 32 - 1 →
        o.stringKeys.filterMap index? =
          List.range ((o.elements.map Array.size).getD 0) ++ List.range ((o.text?.map Text.size).getD 0) ++
            o.indexKeys.map Prod.fst := by
  have hread : ∀ {t}, index? t = some i ↔ i < 2 ^ 32 - 1 ∧ t = toString i := index?_eq_some_iff.trans And.comm
  refine ⟨hread.trans (and_congr_right fun _ => numeral_iff.symm), fun t hs ht => ?_, fun hs => ?_, fun hi => ?_, ?_⟩
  · exact (hread.mp hs).2.trans (hread.mp ht).2.symm
  · exact congrArg Key.string (hread.mp hs).2.symm
  · exact hread.mpr ⟨hi, rfl⟩
  · exact fun o => Object.filterMap_stringKeys

/-- The last index, and an array with a stored index beyond its elements and a name that is no numeral. -/
def Object.sparse : Object :=
  { elements := some #[.null, .undefined]
    properties := #[(.string "4294967294", .ordinary .null), (.string "07", .ordinary .null)] }

theorem Text.index?_canonical_last :
    Numeral "4294967294" 4294967294 ∧ Key.index 4294967294 = .string "4294967294" ∧
      Object.sparse.stringKeys.filterMap index? = [0, 1, 4294967294] := by
  obtain ⟨hread, -, hkey, -, hlisted⟩ := index?_canonical "4294967294" 4294967294
  have hlast : index? "4294967294" = some 4294967294 := by decide
  exact ⟨(hread.mp hlast).2, hkey hlast, (hlisted Object.sparse (by decide) (by decide)).trans (by cbv)⟩

end GuestScript
