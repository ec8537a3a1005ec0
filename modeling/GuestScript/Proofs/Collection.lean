import GuestScript.Proofs.Json.Value
import GuestScript.Proofs.Object.Write

/-!
# Collections as lists of entries

A `Map` or a `Set` answers like a list of entries with different keys, in the order in which the keys were added
(`Collection.Listing`): to set the value of a key that is there leaves it in its place, a new key comes last, and there
is one zero. The gaps that deleted entries leave are never seen.

`Collection.Represents` says which object stands for which list, and `CollectionMethod.refines_listing` that it does so
for any uses of the object one after the other, whatever else happens in between. Sets that are keyed as well, because
`super` has made a set of a map, are left out: the functions of a set would answer for the map then.
-/

namespace GuestScript

variable (answers : Answers)

/-! ## 1. Keys -/

namespace Value

/-- What two keys that count as the same have in common: there is one zero, and a symbol is what it is without its
description. -/
def identity : Value → Value
  | number x => number (if x == 0.0 then 0.0 else x)
  | symbol (.made serial _) => symbol (.made serial none)
  | v => v

theorem zero_beq_zero : ((0.0 : Float) == 0.0) = true :=
  Float.beq_self_iff.mpr (by decide)

/-- Numbers are the same up to the sign of zero if they are the same when there is one zero. -/
theorem sameZero_iff (x y : Float) :
    Number.sameZero x y = true ↔ (if x == 0.0 then (0.0 : Float) else x) = if y == 0.0 then 0.0 else y := by
  simp only [Number.sameZero, Float.isNaN_eq_decide_eq_nan, Bool.or_eq_true, Bool.and_eq_true, decide_eq_true_eq]
  by_cases hx : (x == 0.0) = true <;> by_cases hy : (y == 0.0) = true
  · simp only [hx, hy, if_true, iff_true]
    exact .inr (BEq.trans hx (BEq.symm hy))
  · rw [if_pos hx, if_neg hy]
    refine iff_of_false (fun hsame => hy ?_) fun hsame => hy (hsame ▸ zero_beq_zero)
    rcases hsame with ⟨hnan, -⟩ | hsame
    · exact absurd hnan (Float.beq_iff_ne_nan_and_eq.mp hx).1
    · exact BEq.trans (BEq.symm hsame) hx
  · rw [if_neg hx, if_pos hy]
    refine iff_of_false (fun hsame => hx ?_) fun hsame => hx (hsame ▸ zero_beq_zero)
    rcases hsame with ⟨-, hnan⟩ | hsame
    · exact absurd hnan (Float.beq_iff_ne_nan_and_eq.mp hy).1
    · exact BEq.trans hsame hy
  · rw [if_neg hx, if_neg hy]
    constructor
    · rintro (⟨rfl, rfl⟩ | hsame)
      · rfl
      · rcases (Float.beq_iff_ne_nan_and_eq.mp hsame).2.2 with heq | ⟨rfl, -⟩ | ⟨-, rfl⟩
        · exact heq
        · exact absurd zero_beq_zero hx
        · exact absurd zero_beq_zero hy
    · rintro rfl
      by_cases hnan : x = Float.nan
      · exact .inl ⟨hnan, hnan⟩
      · exact .inr (Float.beq_self_iff.mpr hnan)

/-- Two keys are the same if they have the same identity. -/
theorem sameValueZero_iff (a b : Value) : a.sameValueZero b = true ↔ a.identity = b.identity := by
  rcases a with _ | _ | _ | x | _ | ⟨_ | _ | _⟩ | _ <;> rcases b with _ | _ | _ | y | _ | ⟨_ | _ | _⟩ | _ <;>
    simp [sameValueZero, strictEquals.eq_def, identity, Symbol.same.eq_def, sameZero_iff]

theorem sameValueZero_eq_false_iff (a b : Value) : a.sameValueZero b = false ↔ a.identity ≠ b.identity := by
  rw [← Bool.not_eq_true, sameValueZero_iff]

end Value

namespace Collection

/-! ## 2. Lists of entries -/

/-- The entries of a collection in the order in which their keys were added. -/
abbrev Listing :=
  List (Value × Value)

namespace Listing

/-- Whether a key is there. -/
def has (key : Value) (l : Listing) : Bool :=
  l.any fun entry => entry.1.sameValueZero key

/-- The value of a key. -/
def lookup (key : Value) (l : Listing) : Option Value :=
  (l.find? fun entry => entry.1.sameValueZero key).map Prod.snd

/-- Set the value of a key: in the place of the key, or behind all others. -/
def put (key value : Value) : Listing → Listing
  | [] => [(key, value)]
  | entry :: l => if entry.1.sameValueZero key then (key, value) :: l else entry :: put key value l

/-- Add a member, unless it is there. -/
def add (member : Value) (l : Listing) : Listing :=
  if l.has member then l else l ++ [(member, member)]

/-- Take a key out. -/
def erase (key : Value) (l : Listing) : Listing :=
  l.filter fun entry => !entry.1.sameValueZero key

/-- Whether all keys are different. -/
def Distinct (l : Listing) : Prop :=
  (l.map fun entry => entry.1.identity).Nodup

/-- Whether a key is not there. -/
def Lacks (l : Listing) (key : Value) : Prop :=
  ∀ entry ∈ l, entry.1.identity ≠ key.identity

variable {l l' : Listing} {entry : Value × Value} {key value : Value}

theorem has_eq_false (h : l.Lacks key) : l.has key = false :=
  List.any_eq_false.mpr fun entry hentry => by
    rw [Bool.not_eq_true, Value.sameValueZero_eq_false_iff]
    exact h entry hentry

theorem lookup_eq_none (h : l.Lacks key) : l.lookup key = none := by
  rw [lookup, Option.map_eq_none_iff, List.find?_eq_none]
  intro entry hentry
  rw [Bool.not_eq_true, Value.sameValueZero_eq_false_iff]
  exact h entry hentry

theorem put_of_lacks (h : l.Lacks key) : l.put key value = l ++ [(key, value)] := by
  induction l with
  | nil => rfl
  | cons first l ih =>
    have hfirst := (Value.sameValueZero_eq_false_iff _ _).mpr (h first (List.mem_cons_self ..))
    rw [put, hfirst, if_neg Bool.false_ne_true, ih fun entry hentry => h entry (List.mem_cons_of_mem _ hentry)]
    rfl

theorem add_of_lacks (h : l.Lacks key) : l.add key = l ++ [(key, key)] := by
  rw [add, has_eq_false h, if_neg Bool.false_ne_true]

theorem erase_of_lacks (h : l.Lacks key) : l.erase key = l :=
  List.filter_eq_self.mpr fun entry hentry => by
    rw [(Value.sameValueZero_eq_false_iff _ _).mpr (h entry hentry)]
    rfl

section

variable (hl : l.Lacks key) (hentry : entry.1.identity = key.identity)
include hl hentry

omit hl in
theorem has_of_found : (l ++ entry :: l').has key = true := by
  simp [has, (Value.sameValueZero_iff _ _).mpr hentry]

theorem lookup_of_found : (l ++ entry :: l').lookup key = some entry.2 := by
  have hnone : l.find? (fun entry => entry.1.sameValueZero key) = none := Option.map_eq_none_iff.mp (lookup_eq_none hl)
  rw [lookup, List.find?_append, hnone, Option.none_or, List.find?_cons, (Value.sameValueZero_iff _ _).mpr hentry]
  rfl

theorem put_of_found : (l ++ entry :: l').put key value = l ++ (key, value) :: l' := by
  induction l with
  | nil => rw [List.nil_append, put, (Value.sameValueZero_iff _ _).mpr hentry, if_pos rfl, List.nil_append]
  | cons first l ih =>
    have hfirst := (Value.sameValueZero_eq_false_iff _ _).mpr (hl first (List.mem_cons_self ..))
    rw [List.cons_append, put, hfirst, if_neg Bool.false_ne_true,
      ih fun entry hentry => hl entry (List.mem_cons_of_mem _ hentry), List.cons_append]

omit hl in
theorem add_of_found : (l ++ entry :: l').add key = l ++ entry :: l' := by
  rw [add, has_of_found hentry, if_pos rfl]

theorem erase_of_found (hdistinct : (l ++ entry :: l').Distinct) : (l ++ entry :: l').erase key = l ++ l' := by
  have hl' : l'.Lacks key := fun other hother hsame => by
    rw [Distinct, List.map_append, List.map_cons, List.nodup_append] at hdistinct
    refine (List.nodup_cons.mp hdistinct.2.1).1 (List.mem_map.mpr ⟨other, hother, hsame.trans hentry.symm⟩)
  have hrest := erase_of_lacks hl'
  have hfront := erase_of_lacks hl
  rw [erase] at hrest hfront ⊢
  rw [List.filter_append, hfront, List.filter_cons, (Value.sameValueZero_iff _ _).mpr hentry, hrest]
  rfl

end

/-- A key that is added is different from all others. -/
theorem distinct_snoc (hdistinct : l.Distinct) (h : l.Lacks key) (value : Value) :
    Listing.Distinct (l ++ [(key, value)]) := by
  rw [Distinct, List.map_append, List.nodup_append]
  refine ⟨hdistinct, by simp, ?_⟩
  intro a ha b hb hsame
  obtain ⟨entry, hentry, rfl⟩ := List.mem_map.mp ha
  exact h entry hentry (hsame.trans (List.mem_singleton.mp hb))

/-- An entry that takes the place of one with the same key leaves all keys different. -/
theorem distinct_replaced (hdistinct : (l ++ entry :: l').Distinct) (hentry : entry.1.identity = key.identity)
    (value : Value) : Listing.Distinct (l ++ (key, value) :: l') := by
  simpa [Distinct, hentry] using hdistinct

end Listing

/-! ## 3. Places -/

section

variable {places : Array (Option (Value × Value))} {key : Value}

/-- The entries that are in some places. -/
def present (places : List (Option (Value × Value))) : Listing :=
  places.filterMap id

@[simp] theorem present_append (places places' : List (Option (Value × Value))) :
    present (places ++ places') = present places ++ present places' :=
  List.filterMap_append

@[simp] theorem present_some (entry : Value × Value) (places : List (Option (Value × Value))) :
    present (some entry :: places) = entry :: present places := rfl

@[simp] theorem present_none (places : List (Option (Value × Value))) :
    present (none :: places) = present places := rfl

theorem entries_eq (o : Object) : entries o = present (slots o).toList := rfl

/-- A key that is not found is not there. -/
theorem lacks_of_findKey? (h : findKey? places key = none) : (present places.toList).Lacks key := by
  intro entry hentry
  obtain ⟨place, hplace, rfl⟩ := List.mem_filterMap.mp hentry
  have hnone := Array.findIdx?_eq_none_iff.mp h _ (Array.mem_toList_iff.mp hplace)
  exact (Value.sameValueZero_eq_false_iff _ _).mp hnone

/-- A key that is found is in one place, and in no place before. -/
theorem split_of_findKey? {i : Nat} (h : findKey? places key = some i) : ∃ front entry back,
    places.toList = front ++ some entry :: back ∧ front.length = i ∧ (present front).Lacks key ∧
      entry.1.identity = key.identity := by
  obtain ⟨hi, hfound, hbefore⟩ := Array.findIdx?_eq_some_iff_getElem.mp h
  obtain ⟨entry, hentry, hsame⟩ := (Option.any_eq_true _ _).mp hfound
  have hlength : i < places.toList.length := by simpa using hi
  refine ⟨places.toList.take i, entry, places.toList.drop (i + 1), ?_, ?_, ?_, (Value.sameValueZero_iff _ _).mp hsame⟩
  · have hget : places.toList[i] = some entry := by rw [Array.getElem_toList, hentry]
    rw [← hget, List.getElem_cons_drop, List.take_append_drop]
  · rw [List.length_take, Nat.min_eq_left (Nat.le_of_lt hlength)]
  · intro other hother
    obtain ⟨place, hplace, rfl⟩ := List.mem_filterMap.mp hother
    obtain ⟨j, hj, hget⟩ := List.mem_take_iff_getElem.mp hplace
    have hnot := hbefore j (by omega)
    rw [Array.getElem_toList] at hget
    rw [hget] at hnot
    exact (Value.sameValueZero_eq_false_iff _ _).mp (Bool.eq_false_iff.mpr hnot)

theorem findKey?_isSome (places : Array (Option (Value × Value))) (key : Value) :
    (findKey? places key).isSome = (present places.toList).has key := by
  cases h : findKey? places key with
  | none => exact (Listing.has_eq_false (lacks_of_findKey? h)).symm
  | some i =>
    obtain ⟨front, entry, back, hplaces, -, -, hentry⟩ := split_of_findKey? h
    rw [hplaces, present_append, present_some, Listing.has_of_found hentry]
    rfl

theorem present_insertEntry (places : Array (Option (Value × Value))) (key value : Value) :
    present (insertEntry places key value).toList = (present places.toList).put (normalKey key) value := by
  unfold insertEntry
  dsimp only
  cases h : findKey? places (normalKey key) with
  | none =>
    dsimp only
    rw [Array.toList_push, present_append, Listing.put_of_lacks (lacks_of_findKey? h)]
    rfl
  | some i =>
    obtain ⟨front, entry, back, hplaces, rfl, hfront, hentry⟩ := split_of_findKey? h
    dsimp only
    rw [Object.toList_setIfInBounds_split hplaces, hplaces, present_append, present_append, present_some, present_some,
      Listing.put_of_found hfront hentry]

/-- A place of which the entry is taken out is a gap. -/
theorem present_erased {i : Nat} (h : findKey? places key = some i) (hdistinct : (present places.toList).Distinct) :
    present (places.setIfInBounds i none).toList = (present places.toList).erase key := by
  obtain ⟨front, entry, back, hplaces, rfl, hfront, hentry⟩ := split_of_findKey? h
  rw [hplaces, present_append, present_some] at hdistinct
  rw [Object.toList_setIfInBounds_split hplaces, hplaces, present_append, present_append, present_some, present_none,
    Listing.erase_of_found hfront hentry hdistinct]

end

section

variable (members : Array (Option Value)) (member : Value)

theorem findMember?_eq : findMember? members member = findKey? (memberSlots members) member := by
  rw [findKey?, memberSlots, Array.findIdx?_map]
  refine congrArg members.findIdx? (funext fun place => ?_)
  cases place <;> rfl

theorem memberSlots_push : memberSlots (members.push (some member)) = (memberSlots members).push (some (member, member)) := by
  simp [memberSlots]

theorem memberSlots_erased (i : Nat) :
    memberSlots (members.setIfInBounds i none) = (memberSlots members).setIfInBounds i none := by
  simp [memberSlots, Array.map_setIfInBounds]

theorem present_insertMember :
    present (memberSlots (insertMember members member)).toList =
      (present (memberSlots members).toList).add (normalKey member) := by
  unfold insertMember
  dsimp only
  rw [findMember?_eq]
  cases h : findKey? (memberSlots members) (normalKey member) with
  | none =>
    dsimp only
    rw [memberSlots_push, Array.toList_push, present_append, Listing.add_of_lacks (lacks_of_findKey? h)]
    rfl
  | some i =>
    obtain ⟨front, entry, back, hplaces, -, -, hentry⟩ := split_of_findKey? h
    dsimp only
    rw [hplaces, present_append, present_some, Listing.add_of_found hentry]

end

/-! ## 4. Objects -/

/-- Whether an object is a collection of a sort that has some entries. A set must not be keyed as well. -/
structure Represents (kind : CollectionKind) (o : Object) (l : Listing) : Prop where
  sort : o.sort = .collection kind
  keyed : kind.isKeyed = true → o.mapEntries.isSome = true
  unkeyed : kind.isKeyed = false → o.mapEntries = none ∧ o.setEntries.isSome = true
  entries : Collection.entries o = l
  distinct : l.Distinct

section

variable {kind : CollectionKind} {o : Object} {l : Listing} (h : Represents kind o l)
include h

theorem Represents.has_eq (key : Value) : Collection.has o key = l.has key := by
  rw [Collection.has, findKey?_isSome, ← entries_eq, h.entries]

theorem Represents.value?_eq (key : Value) : Collection.value? o key = l.lookup key := by
  rw [Collection.value?, ← h.entries, entries_eq]
  cases hfind : findKey? (slots o) key with
  | none => exact (Listing.lookup_eq_none (lacks_of_findKey? hfind)).symm
  | some i =>
    obtain ⟨front, entry, back, hplaces, rfl, hfront, hentry⟩ := split_of_findKey? hfind
    have hget : (slots o)[front.length]? = some (some entry) := by
      rw [← Array.getElem?_toList, hplaces, List.getElem?_append_right (Nat.le_refl _), Nat.sub_self]
      rfl
    rw [Option.bind_some, hget, hplaces, present_append, present_some, Listing.lookup_of_found hfront hentry]
    rfl

end

namespace Listing

variable {l : Listing} {key : Value}

/-- A key that is there has a place, which is the first one. -/
theorem lacks_or_found (l : Listing) (key : Value) :
    l.Lacks key ∨ ∃ front entry back, l = front ++ entry :: back ∧ Listing.Lacks front key ∧
      entry.1.identity = key.identity := by
  induction l with
  | nil => exact .inl (List.forall_mem_nil _)
  | cons first l ih =>
    by_cases hfirst : first.1.identity = key.identity
    · exact .inr ⟨[], first, l, rfl, List.forall_mem_nil _, hfirst⟩
    rcases ih with hlacks | ⟨front, entry, back, rfl, hfront, hentry⟩
    · exact .inl (List.forall_mem_cons.mpr ⟨hfirst, hlacks⟩)
    · exact .inr ⟨first :: front, entry, back, rfl, List.forall_mem_cons.mpr ⟨hfirst, hfront⟩, hentry⟩

theorem distinct_put (h : l.Distinct) (key value : Value) : (l.put key value).Distinct := by
  rcases l.lacks_or_found key with hlacks | ⟨front, entry, back, rfl, hfront, hentry⟩
  · rw [put_of_lacks hlacks]
    exact distinct_snoc h hlacks value
  · rw [put_of_found hfront hentry]
    exact distinct_replaced h hentry value

theorem distinct_add (h : l.Distinct) (member : Value) : (l.add member).Distinct := by
  rcases l.lacks_or_found member with hlacks | ⟨front, entry, back, rfl, -, hentry⟩
  · rw [add_of_lacks hlacks]
    exact distinct_snoc h hlacks member
  · rwa [add_of_found hentry]

theorem distinct_erase (h : l.Distinct) (key : Value) : (l.erase key).Distinct :=
  List.Nodup.sublist (List.filter_sublist.map _) h

end Listing

section

variable {kind : CollectionKind} {o : Object} {l : Listing} (h : Represents kind o l)
include h

/-- To take a key out takes it out of the list, and says whether it was there. -/
theorem Represents.erase (key : Value) :
    Represents kind (erase o key).1 (l.erase key) ∧ (Collection.erase o key).2 = l.has key := by
  have hpresent : present (slots o).toList = l := h.entries
  cases hfind : findKey? (slots o) key with
  | none =>
    have hlacks := lacks_of_findKey? hfind
    rw [hpresent] at hlacks
    rw [Collection.erase, hfind, Listing.erase_of_lacks hlacks, Listing.has_eq_false hlacks]
    exact ⟨h, rfl⟩
  | some i =>
    have herased := present_erased hfind (by rw [hpresent]; exact h.distinct)
    have hhas := findKey?_isSome (slots o) key
    rw [hpresent] at herased hhas
    rw [hfind] at hhas
    rw [Collection.erase, hfind]
    dsimp only
    split
    next es hes =>
      have hslots : slots o = es := by rw [slots, hes]
      rw [hslots] at herased
      refine ⟨⟨h.sort, fun _ => rfl, fun hkind => ?_, herased, Listing.distinct_erase h.distinct key⟩, hhas⟩
      have hnone := (h.unkeyed hkind).1
      rw [hes] at hnone
      cases hnone
    next hnone =>
      have hunkeyed : kind.isKeyed = false := by
        by_contra hkeyed
        have hsome := h.keyed (Bool.not_eq_false _ ▸ hkeyed)
        rw [hnone] at hsome
        cases hsome
      obtain ⟨ms, hms⟩ := Option.isSome_iff_exists.mp (h.unkeyed hunkeyed).2
      have hslots : slots o = memberSlots ms := by rw [slots, hnone, hms]
      rw [hslots, ← memberSlots_erased] at herased
      refine ⟨⟨h.sort, fun hkeyed => ?_, fun _ => ⟨hnone, by rw [hms]; rfl⟩, ?_, Listing.distinct_erase h.distinct key⟩, hhas⟩
      · rw [hunkeyed] at hkeyed
        cases hkeyed
      · rw [hms, entries_eq, slots, hnone]
        exact herased

/-- To set the value of a key in a keyed collection sets it in the list. -/
theorem Represents.insertEntry (hkind : kind.isKeyed = true) (key value : Value) :
    ∃ es, o.mapEntries = some es ∧
      Represents kind { o with mapEntries := some (insertEntry es key value) } (l.put (normalKey key) value) := by
  obtain ⟨es, hes⟩ := Option.isSome_iff_exists.mp (h.keyed hkind)
  have hslots : slots o = es := by rw [slots, hes]
  have hpresent : present es.toList = l := by rw [← hslots]; exact h.entries
  refine ⟨es, hes, h.sort, fun _ => rfl, fun hunkeyed => ?_, ?_, Listing.distinct_put h.distinct _ _⟩
  · rw [hkind] at hunkeyed
    cases hunkeyed
  · rw [← hpresent, ← present_insertEntry]
    rfl

/-- To add a member to a set adds it to the list. -/
theorem Represents.insertMember (hkind : kind.isKeyed = false) (member : Value) :
    ∃ ms, o.setEntries = some ms ∧
      Represents kind { o with setEntries := some (insertMember ms member) } (l.add (normalKey member)) := by
  obtain ⟨hnone, hsome⟩ := h.unkeyed hkind
  obtain ⟨ms, hms⟩ := Option.isSome_iff_exists.mp hsome
  have hslots : slots o = memberSlots ms := by rw [slots, hnone, hms]
  have hpresent : present (memberSlots ms).toList = l := by rw [← hslots]; exact h.entries
  refine ⟨ms, hms, h.sort, fun hkeyed => ?_, fun _ => ⟨hnone, rfl⟩, ?_, Listing.distinct_add h.distinct _⟩
  · rw [hkind] at hkeyed
    cases hkeyed
  · rw [← hpresent, ← present_insertMember, entries_eq, slots, hnone]

theorem Represents.clear : Represents kind (clear o) [] := by
  refine ⟨h.sort, fun hkeyed => ?_, fun hunkeyed => ?_, ?_, List.Pairwise.nil⟩
  · simpa [Collection.clear] using h.keyed hkeyed
  · simpa [Collection.clear] using h.unkeyed hunkeyed
  · cases hmap : o.mapEntries <;> cases hset : o.setEntries <;>
      simp [entries_eq, slots, Collection.clear, hmap, hset, present, memberSlots]

end

/-! ## 5. Answers -/

/-- What a function of a collection answers. -/
inductive Answer where
  | value (v : Value)
  /-- The collection itself. -/
  | receiver
  /-- A new array. -/
  | list (values : List Value)
  /-- A new array of new arrays of two. -/
  | pairs (entries : Listing)

/-- Whether a value is an array with some elements, and nothing else. -/
def ShowsArray (m : Machine) (elements : Array Value) (v : Value) : Prop :=
  ∃ id, v = .object id ∧ m.objectAt id = .ofElements elements

/-- An array stays as it is while new objects are made. -/
theorem ShowsArray.mono {m m' : Machine} {elements : Array Value} {v : Value} (h : ShowsArray m elements v)
    (hgrows : m.Grows m') : ShowsArray m' elements v := by
  obtain ⟨id, rfl, hid⟩ := h
  refine ⟨id, rfl, (hgrows.objects id ?_).trans hid⟩
  by_contra hge
  rw [State.objectAt_of_size_le (Nat.le_of_not_lt hge)] at hid
  exact absurd (congrArg Object.sort hid) nofun

/-- Whether a value is an answer of a collection on a machine. -/
def Answer.Is (m : Machine) (id : ObjectId) (v : Value) : Answer → Prop
  | .value w => v = w
  | .receiver => v = .object id
  | .list values => ShowsArray m values.toArray v
  | .pairs entries => ∃ pairs, ShowsArray m pairs v ∧
      List.Forall₂ (fun entry pair => ShowsArray m #[entry.1, entry.2] pair) entries pairs.toList

end Collection

/-- The functions of a collection that answer at once. -/
def CollectionKind.methods (kind : CollectionKind) : List CollectionMethod :=
  [.has, .delete, .clear, .keys, .values, .entries, .size] ++ if kind.isKeyed then [.get, .set] else [.add]

namespace CollectionMethod

open Collection

/-- What a function answers for a list of entries. -/
def answer (method : CollectionMethod) (args : Array Value) (l : Listing) : Answer :=
  match method with
  | .has | .delete => .value (.boolean (l.has (argument args 0)))
  | .get => .value ((l.lookup (argument args 0)).getD .undefined)
  | .set | .add => .receiver
  | .clear | .forEach => .value .undefined
  | .size => .value (.ofNat l.length)
  | .keys => .list (l.map Prod.fst)
  | .values => .list (l.map Prod.snd)
  | .entries => .pairs l

/-- What a function makes of a list of entries. -/
def next (method : CollectionMethod) (args : Array Value) (l : Listing) : Listing :=
  match method with
  | .set => l.put (normalKey (argument args 0)) (argument args 1)
  | .add => l.add (normalKey (argument args 0))
  | .delete => l.erase (argument args 0)
  | .clear => []
  | .has | .get | .size | .keys | .values | .entries | .forEach => l

end CollectionMethod

namespace Eval

open Collection

variable {kind : CollectionKind} {m : Machine} {id : ObjectId} {l : Listing}

theorem run_newArray (m : Machine) (elements : Array Value) :
    ∃ v m', (newArray elements).run answers m = .ok v m' ∧ m.Grows m' ∧ ShowsArray m' elements v :=
  ⟨_, _, rfl, .push m (.ofElements elements), _, rfl, State.objectAt_pushed m.toState _⟩

theorem run_newPairs (l : Listing) (m : Machine) :
    ∃ pairs m', (newPairs l).run answers m = .ok pairs m' ∧ m.Grows m' ∧
      List.Forall₂ (fun entry pair => ShowsArray m' #[entry.1, entry.2] pair) l pairs.toList := by
  have hfrom : ∀ (l : Listing) (acc : Array Value) (m : Machine), ∃ pairs m',
      (l.foldlM (fun acc entry => return acc.push (← newArray #[entry.1, entry.2])) acc : Eval (Array Value)).run answers m =
        .ok (acc ++ pairs) m' ∧ m.Grows m' ∧
      List.Forall₂ (fun entry pair => ShowsArray m' #[entry.1, entry.2] pair) l pairs.toList := by
    intro l
    induction l with
    | nil => exact fun acc m => ⟨#[], m, by simp [pure, run], .refl m, .nil⟩
    | cons entry l ih =>
      intro acc m
      obtain ⟨pair, m₁, hrun, hgrows, hpair⟩ := run_newArray answers m #[entry.1, entry.2]
      obtain ⟨pairs, m', hrest, hgrows', hpairs⟩ := ih (acc.push pair) m₁
      refine ⟨#[pair] ++ pairs, m', ?_, hgrows.trans hgrows', ?_⟩
      · rw [List.foldlM_cons, run_bind_of_ok (run_bind_of_ok hrun), hrest]
        simp
      · rw [Array.toList_append]
        exact .cons (hpair.mono hgrows') hpairs
  obtain ⟨pairs, m', hrun, hrest⟩ := hfrom l #[] m
  exact ⟨pairs, m', by rw [newPairs, hrun, Array.empty_append], hrest⟩

section

variable (h : Represents kind (m.objectAt id) l)

include h

/-- An object that stands for a list has a place on the heap. -/
theorem index_lt_of_represents : id.index < m.heap.size := by
  by_contra hge
  have hsort := h.sort
  rw [State.objectAt_of_size_le (Nat.le_of_not_lt hge)] at hsort
  exact absurd hsort nofun

theorem run_receiverCollection (method : String) :
    (receiverCollection (.object id) kind method).run answers m = .ok id m := by
  have hentries : (if kind.isKeyed then (m.objectAt id).mapEntries.isSome else (m.objectAt id).setEntries.isSome) =
      true := by
    cases hkind : kind.isKeyed with
    | true => exact h.keyed hkind
    | false => exact (h.unkeyed hkind).2
  have hread : (object id).run answers m = .ok (m.objectAt id) m := rfl
  simp only [receiverCollection, run_bind_of_ok hread, h.sort, hentries, decide_true, Bool.and_self, if_true]
  rfl

omit h in
/-- An object takes a change that is asked for where it is. -/
theorem run_changed {α : Type} (f : Object → Object × α) (hid : id.index < m.heap.size) :
    ∃ m', (updateObject id f).run answers m = .ok (f (m.objectAt id)).2 m' ∧
      m'.objectAt id = (f (m.objectAt id)).1 := by
  obtain ⟨m', hrun, -, hobject⟩ := fills_updated f hid
  exact ⟨m', hrun, hobject⟩

/-- To set the value of a key in a keyed collection sets it in the list. -/
theorem run_insertEntry (hkind : kind.isKeyed = true) (key value : Value) :
    ∃ m', (insertEntry id key value).run answers m = .ok () m' ∧
      Represents kind (m'.objectAt id) (l.put (normalKey key) value) := by
  obtain ⟨es, hes, hput⟩ := h.insertEntry hkind key value
  refine (run_changed answers _ (index_lt_of_represents h)).imp fun m' hm' => ⟨hm'.1, ?_⟩
  rw [hm'.2]
  dsimp only
  rw [hes]
  exact hput

/-- To add a member to a set adds it to the list. -/
theorem run_insertMember (hkind : kind.isKeyed = false) (member : Value) :
    ∃ m', (insertMember id member).run answers m = .ok () m' ∧
      Represents kind (m'.objectAt id) (l.add (normalKey member)) := by
  obtain ⟨ms, hms, hadd⟩ := h.insertMember hkind member
  refine (run_changed answers _ (index_lt_of_represents h)).imp fun m' hm' => ⟨hm'.1, ?_⟩
  rw [hm'.2]
  dsimp only
  rw [hms]
  exact hadd

/-- A new array of what is in a collection. -/
theorem run_list (values : List Value) :
    ∃ v m', (newArray values.toArray).run answers m = .ok v m' ∧ (Answer.list values).Is m' id v ∧
      Represents kind (m'.objectAt id) l := by
  obtain ⟨v, m', hrun, hgrows, hv⟩ := run_newArray answers m values.toArray
  exact ⟨v, m', hrun, hv, (hgrows.objects id (index_lt_of_represents h)).symm ▸ h⟩

end

/-- **One use of a collection** answers like the list that it stands for, and then it stands for the next list. -/
theorem run_collectionMethod (hweak : kind.isWeak = false) (h : Represents kind (m.objectAt id) l)
    {method : CollectionMethod} (hmethod : method ∈ kind.methods) (args : Array Value) :
    ∃ v m', (method.run kind (.object id) args).run answers m = .ok v m' ∧ (method.answer args l).Is m' id v ∧
      Represents kind (m'.objectAt id) (method.next args l) := by
  have hid := index_lt_of_represents h
  have hobject : (object id).run answers m = .ok (m.objectAt id) m := rfl
  have hcheck (key : Value) : (checkWeakKey kind key).run answers m = .ok () m := by
    rw [checkWeakKey, hweak]
    rfl
  have hentries := h.entries
  rw [CollectionMethod.run, run_bind_of_ok (run_receiverCollection answers h _)]
  cases method with
  | has => exact ⟨_, m, rfl, congrArg Value.boolean (h.has_eq _), h⟩
  | get => exact ⟨_, m, rfl, congrArg (Option.getD · _) (h.value?_eq _), h⟩
  | size => exact ⟨_, m, rfl, by rw [hentries]; rfl, h⟩
  | delete =>
    obtain ⟨herased, hanswer⟩ := h.erase (argument args 0)
    obtain ⟨m', hrun, hafter⟩ := run_changed answers (fun o => Collection.erase o (argument args 0)) hid
    refine ⟨_, m', run_bind_of_ok hrun, congrArg Value.boolean hanswer, ?_⟩
    rw [hafter]
    exact herased
  | clear =>
    obtain ⟨m', hrun, hafter⟩ := run_changed answers (fun o => (Collection.clear o, ())) hid
    refine ⟨_, m', run_bind_of_ok hrun, rfl, ?_⟩
    rw [hafter]
    exact h.clear
  | set =>
    have hkeyed : kind.isKeyed = true := by
      cases hkind : kind.isKeyed with
      | true => rfl
      | false => simp [CollectionKind.methods, hkind] at hmethod
    obtain ⟨m', hrun, hafter⟩ := run_insertEntry answers h hkeyed (argument args 0) (argument args 1)
    exact ⟨_, m', by rw [run_bind_of_ok (hcheck _), run_bind_of_ok hrun]; rfl, rfl, hafter⟩
  | add =>
    have hunkeyed : kind.isKeyed = false := by
      cases hkind : kind.isKeyed with
      | false => rfl
      | true => simp [CollectionKind.methods, hkind] at hmethod
    obtain ⟨m', hrun, hafter⟩ := run_insertMember answers h hunkeyed (argument args 0)
    exact ⟨_, m', by rw [run_bind_of_ok (hcheck _), run_bind_of_ok hrun]; rfl, rfl, hafter⟩
  | keys =>
    obtain ⟨v, m', hrun, hanswer, hafter⟩ := run_list answers h (l.map Prod.fst)
    exact ⟨v, m', by rw [← hentries] at hrun; exact hrun, hanswer, hafter⟩
  | values =>
    obtain ⟨v, m', hrun, hanswer, hafter⟩ := run_list answers h (l.map Prod.snd)
    exact ⟨v, m', by rw [← hentries] at hrun; exact hrun, hanswer, hafter⟩
  | entries =>
    obtain ⟨pairs, m₁, hpairs, hgrows, hshows⟩ := run_newPairs answers l m
    obtain ⟨v, m', hrun, hgrows', hv⟩ := run_newArray answers m₁ pairs
    refine ⟨v, m', ?_, ⟨pairs, hv, hshows.imp fun _ _ hpair => hpair.mono hgrows'⟩, ?_⟩
    · rw [run_bind_of_ok hobject, hentries, run_bind_of_ok hpairs, hrun]
    · exact ((hgrows.trans hgrows').objects id hid).symm ▸ h
  | forEach => cases hkind : kind.isKeyed <;> simp [CollectionKind.methods, hkind] at hmethod

end Eval

namespace Eval

open Collection

/-- A new collection without items is empty. -/
theorem run_makeCollection {kind : CollectionKind} {m : Machine} {id target : ObjectId} {args : Array Value}
    (htarget : m.newTarget = some target) (hid : id.index < m.heap.size) (hsource : (argument args 0).isNullish = true)
    (hfresh : kind.isKeyed = false → (m.objectAt id).mapEntries = none) :
    ∃ m', (makeCollection kind (.object id) args).run answers m = .ok (.object id) m' ∧
      Represents kind (m'.objectAt id) [] := by
  have hconstructing : (constructing? (.object id)).run answers m = .ok (some id) m := by
    change EStateM.Result.ok _ m = _
    dsimp only
    rw [htarget]
  have hempty : Represents kind (if kind.isKeyed then { m.objectAt id with sort := .collection kind, mapEntries := some #[] }
      else { m.objectAt id with sort := .collection kind, setEntries := some #[] }) [] := by
    cases hkind : kind.isKeyed with
    | true =>
      refine ⟨rfl, fun _ => rfl, fun hunkeyed => ?_, rfl, List.Pairwise.nil⟩
      rw [hkind] at hunkeyed
      cases hunkeyed
    | false =>
      refine ⟨rfl, fun hkeyed => ?_, fun _ => ⟨hfresh hkind, rfl⟩, ?_, List.Pairwise.nil⟩
      · rw [hkind] at hkeyed
        cases hkeyed
      · simp [entries_eq, slots, hfresh hkind, memberSlots, present]
  rw [makeCollection, run_bind_of_ok hconstructing]
  obtain ⟨m', hrun, hafter⟩ := run_changed answers (fun o : Object =>
    (if kind.isKeyed then { o with sort := .collection kind, mapEntries := some #[] }
      else { o with sort := .collection kind, setEntries := some #[] }, ())) hid
  refine ⟨m', ?_, hafter ▸ hempty⟩
  refine (run_bind_of_ok hrun).trans ?_
  dsimp only
  rw [hsource]
  rfl

end Eval

namespace Collection

/-! ## 6. Any number of uses -/

/-- Whether an object is a collection with the places that another one has. -/
structure SamePlaces (o o' : Object) : Prop where
  sort : o'.sort = o.sort
  entries : o'.mapEntries = o.mapEntries
  members : o'.setEntries = o.setEntries

theorem Represents.congr {kind : CollectionKind} {o o' : Object} {l : Listing} (h : Represents kind o l)
    (hsame : SamePlaces o o') : Represents kind o' l where
  sort := hsame.sort.trans h.sort
  keyed := by
    rw [hsame.entries]
    exact h.keyed
  unkeyed := by
    rw [hsame.entries, hsame.members]
    exact h.unkeyed
  entries := by
    rw [← h.entries, entries_eq, entries_eq, slots, slots, hsame.entries, hsame.members]
  distinct := h.distinct

/-- Whether the object at an address answers a number of uses like a list of entries. Before each use anything may
happen that leaves the places of the object alone. -/
def Refines (kind : CollectionKind) (id : ObjectId) (answers : Answers) :
    List (CollectionMethod × Array Value) → Object → Listing → Prop
  | [], _, _ => True
  | (method, args) :: uses, o, l => ∀ m : Machine, SamePlaces o (m.objectAt id) →
    ∃ v m', (method.run kind (.object id) args).run answers m = .ok v m' ∧ (method.answer args l).Is m' id v ∧
      Refines kind id answers uses (m'.objectAt id) (method.next args l)

end Collection

namespace CollectionMethod

open Collection

/-- **A collection answers like a list of entries.** A new `Map` or `Set` stands for the empty list, unless the object
that becomes a set is keyed. An object that stands for a list answers any number of uses like the list, and every use
returns. -/
theorem refines_listing {kind : CollectionKind} (hweak : kind.isWeak = false) (id : ObjectId) (answers : Answers) :
    (∀ (m : Machine) (target : ObjectId) (args : Array Value), m.newTarget = some target → id.index < m.heap.size →
      (argument args 0).isNullish = true → (kind.isKeyed = false → (m.objectAt id).mapEntries = none) →
        ∃ m', (Eval.makeCollection kind (.object id) args).run answers m = .ok (.object id) m' ∧
          Represents kind (m'.objectAt id) []) ∧
    ∀ (uses : List (CollectionMethod × Array Value)) (o : Object) (l : Listing), Represents kind o l →
      (∀ use ∈ uses, use.1 ∈ kind.methods) → Refines kind id answers uses o l := by
  refine ⟨fun m target args htarget hid hsource hfresh =>
    Eval.run_makeCollection answers htarget hid hsource hfresh, fun uses => ?_⟩
  · induction uses with
    | nil => exact fun _ _ _ _ => trivial
    | cons use uses ih =>
      intro o l h hmethods m hsame
      obtain ⟨v, m', hrun, hanswer, hafter⟩ :=
        Eval.run_collectionMethod answers hweak (h.congr hsame) (hmethods use (List.mem_cons_self ..)) use.2
      exact ⟨v, m', hrun, hanswer, ih _ _ hafter fun u hu => hmethods u (List.mem_cons_of_mem _ hu)⟩

/-- A machine with a map that has one entry. -/
def mapMachine : Machine :=
  { heap := #[{ sort := .collection .map, mapEntries := some #[some (.null, .undefined)] }] }

/-- In a map with one entry, a key is set, and the entry is deleted. -/
theorem refines_listing_pair : CollectionKind.map.isWeak = false ∧
    Represents .map (mapMachine.objectAt ⟨0⟩) [(.null, .undefined)] ∧
    Refines .map ⟨0⟩ (Eval.answers 1) [(.set, #[.undefined, .null]), (.delete, #[.null]), (.size, #[])]
      (mapMachine.objectAt ⟨0⟩) [(.null, .undefined)] := by
  have hmap : Represents .map (mapMachine.objectAt ⟨0⟩) [(.null, .undefined)] :=
    ⟨rfl, fun _ => rfl, nofun, rfl, List.pairwise_singleton _ _⟩
  exact ⟨rfl, hmap, (refines_listing rfl ⟨0⟩ (Eval.answers 1)).2 _ _ _ hmap (by decide)⟩

end CollectionMethod

end GuestScript
