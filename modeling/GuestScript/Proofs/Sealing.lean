import GuestScript.Proofs.Realm

/-!
# What sealing protects

Sealing walks from the values of the global names and from the two roots of all prototypes over everything that these
lead to. An object is protected afterwards exactly if it can be reached in this way (`Machine.sealed_protects`), and the
walk ends by itself: no larger bound on the number of its steps changes a label.

What one step of the walk hands on to the next (`Realm.Underway`) is that all that is listed or labeled can be reached,
and that whatever a visited object leads to has been visited itself or is listed. A step takes an entry off the list. It
adds as many as the object has links, but it does so once for each object (`Realm.pending_visit`).
-/

namespace GuestScript

/-! ## 1. Reaching objects -/

/-- Whether an object leads to another one: through a property, whose key is a text or a symbol, or as its prototype. -/
inductive Object.Leads (o : Object) : ObjectId → Prop
  | value {key : Key} {p : Property} {id : ObjectId} {writable : Bool} (hp : (key, p) ∈ o.properties)
      (hcontent : p.content = .data (.object id) writable) : o.Leads id
  | getter {key : Key} {p : Property} {id : ObjectId} {setter : Value} (hp : (key, p) ∈ o.properties)
      (hcontent : p.content = .accessor (.object id) setter) : o.Leads id
  | setter {key : Key} {p : Property} {id : ObjectId} {getter : Value} (hp : (key, p) ∈ o.properties)
      (hcontent : p.content = .accessor getter (.object id)) : o.Leads id
  | prototype {id : ObjectId} (h : o.prototype = some id) : o.Leads id

/-- Whether an object can be reached from the global values or from one of the two roots of all prototypes. -/
inductive Realm.Reaches (heap : Array Object) (globals : List (String × Value)) : ObjectId → Prop
  | global {name : String} {id : ObjectId} (h : (name, .object id) ∈ globals) : Reaches heap globals id
  | objectPrototype : Reaches heap globals Intrinsic.objectPrototype.id
  | functionPrototype : Reaches heap globals Intrinsic.functionPrototype.id
  | link {id next : ObjectId} {o : Object} (h : Reaches heap globals id) (ho : heap[id.index]? = some o)
      (hleads : o.Leads next) : Reaches heap globals next

theorem Value.object?_eq_some {v : Value} {id : ObjectId} : v.object? = some id ↔ v = .object id := by
  cases v <;> simp [object?]

/-- The neighbours of an object are what it leads to. -/
theorem Object.mem_neighbours {o : Object} {next : ObjectId} : next ∈ o.neighbours ↔ o.Leads next := by
  simp only [neighbours, List.mem_append, List.mem_flatMap, Option.mem_toList, Array.mem_toList_iff]
  constructor
  · rintro (⟨⟨key, p⟩, hp, hheld⟩ | hprototype)
    · obtain ⟨content, enumerable, configurable⟩ := p
      cases content with
      | data v writable =>
        obtain rfl := Value.object?_eq_some.mp (Option.mem_toList.mp hheld)
        exact .value hp rfl
      | accessor getter setter =>
        simp only [heldBy, List.mem_append, Option.mem_toList, Value.object?_eq_some] at hheld
        rcases hheld with rfl | rfl
        · exact .getter hp rfl
        · exact .setter hp rfl
    · exact .prototype hprototype
  · rintro (⟨hp, hcontent⟩ | ⟨hp, hcontent⟩ | ⟨hp, hcontent⟩ | hprototype)
    · exact .inl ⟨_, hp, by simp [heldBy, hcontent, Value.object?]⟩
    · exact .inl ⟨_, hp, by simp [heldBy, hcontent, Value.object?]⟩
    · exact .inl ⟨_, hp, by simp [heldBy, hcontent, Value.object?]⟩
    · exact .inr hprototype

namespace Realm

/-- The walk starts from objects that can be reached. -/
theorem mem_roots {globals : List (String × Value)} {id : ObjectId} :
    (∃ label, (id, label) ∈ roots globals) ↔ (∃ name, (name, .object id) ∈ globals) ∨
      id = Intrinsic.objectPrototype.id ∨ id = Intrinsic.functionPrototype.id := by
  simp only [roots, List.mem_reverse, List.mem_append, List.mem_filterMap, Option.map_eq_some_iff,
    Value.object?_eq_some, List.mem_cons, List.not_mem_nil, or_false, Prod.mk.injEq]
  constructor
  · rintro ⟨label, ⟨⟨name, v⟩, hglobal, _, rfl, rfl, -⟩ | ⟨rfl, -⟩ | ⟨rfl, -⟩⟩
    · exact .inl ⟨name, hglobal⟩
    · exact .inr (.inl rfl)
    · exact .inr (.inr rfl)
  · rintro (⟨name, hglobal⟩ | rfl | rfl)
    · exact ⟨name, .inl ⟨_, hglobal, _, rfl, rfl, rfl⟩⟩
    · exact ⟨_, .inr (.inl ⟨rfl, rfl⟩)⟩
    · exact ⟨_, .inr (.inr ⟨rfl, rfl⟩)⟩

/-! ## 2. The walk -/

variable {heap : Array Object} {globals : List (String × Value)} {l rest : List (ObjectId × String)} {seen : Array Bool}
  {labels : Array (Option String)} {id : ObjectId} {label : String}

/-- What holds at every step of the walk. -/
structure Underway (heap : Array Object) (globals : List (String × Value)) (l : List (ObjectId × String))
    (seen : Array Bool) (labels : Array (Option String)) : Prop where
  sizes : seen.size = heap.size ∧ labels.size = heap.size
  listed : ∀ entry ∈ l, Reaches heap globals entry.1
  labeled : ∀ id : ObjectId, ∀ label, labels[id.index]? = some (some label) → Reaches heap globals id
  seen_labeled : ∀ id : ObjectId, seen[id.index]? = some true → ∃ label, labels[id.index]? = some (some label)
  started : ∀ entry ∈ roots globals, entry.1.index < heap.size →
    seen[entry.1.index]? = some true ∨ ∃ label, (entry.1, label) ∈ l
  closed : ∀ id : ObjectId, seen[id.index]? = some true → ∀ o, heap[id.index]? = some o → ∀ next, o.Leads next →
    next.index < heap.size → seen[next.index]? = some true ∨ ∃ label, (next, label) ∈ l

/-- The first entry of the list is passed over when its object has been visited, or is not there. -/
theorem Underway.pass (h : Underway heap globals ((id, label) :: rest) seen labels)
    (hseen : seen.getD id.index true = true) : Underway heap globals rest seen labels := by
  have hrest : ∀ next : ObjectId, next.index < heap.size →
      (seen[next.index]? = some true ∨ ∃ label', (next, label') ∈ (id, label) :: rest) →
      seen[next.index]? = some true ∨ ∃ label', (next, label') ∈ rest := by
    rintro next hnext (hvisited | ⟨label', hmem⟩)
    · exact .inl hvisited
    rcases List.mem_cons.mp hmem with heq | hmem
    · cases heq
      rw [← h.sizes.1] at hnext
      exact .inl (by simpa [Array.getD, hnext] using hseen)
    · exact .inr ⟨label', hmem⟩
  exact { h with
    listed := fun entry hentry => h.listed entry (List.mem_cons_of_mem _ hentry)
    started := fun entry hentry hsize => hrest _ hsize (h.started entry hentry hsize)
    closed := fun id hid o ho next hleads hsize => hrest _ hsize (h.closed id hid o ho next hleads hsize) }

/-- An object that has not been visited takes a label, and what it leads to is listed. -/
theorem Underway.visit (h : Underway heap globals ((id, label) :: rest) seen labels) {o : Object}
    (ho : heap[id.index]? = some o) :
    Underway heap globals (o.neighbours.map (fun n => (n, label)) ++ rest) (seen.setIfInBounds id.index true)
      (labels.modify id.index fun l => l.or (some label)) := by
  have hreached : Reaches heap globals id := h.listed _ List.mem_cons_self
  have hid : id.index < heap.size := (Array.getElem?_eq_some_iff.mp ho).1
  have hvisited : (seen.setIfInBounds id.index true)[id.index]? = some true := by
    simp [h.sizes.1, hid]
  have hmono : ∀ next : ObjectId, seen[next.index]? = some true →
      (seen.setIfInBounds id.index true)[next.index]? = some true := by
    intro next hnext
    rw [Array.getElem?_setIfInBounds]
    split
    · simp [h.sizes.1, hid]
    · exact hnext
  have hrest : ∀ next : ObjectId, (seen[next.index]? = some true ∨ ∃ label', (next, label') ∈ (id, label) :: rest) →
      (seen.setIfInBounds id.index true)[next.index]? = some true ∨
        ∃ label', (next, label') ∈ o.neighbours.map (fun n => (n, label)) ++ rest := by
    rintro next (hnext | ⟨label', hmem⟩)
    · exact .inl (hmono next hnext)
    rcases List.mem_cons.mp hmem with heq | hmem
    · cases heq
      exact .inl hvisited
    · exact .inr ⟨label', List.mem_append_right _ hmem⟩
  refine ⟨by simpa using h.sizes, fun entry hentry => ?_, fun other label' hlabel => ?_, fun other hother => ?_,
    fun entry hentry hsize => hrest _ (h.started entry hentry hsize), fun other hother o' ho' next hleads hsize => ?_⟩
  · rcases List.mem_append.mp hentry with hentry | hentry
    · obtain ⟨next, hnext, rfl⟩ := List.mem_map.mp hentry
      exact .link hreached ho (Object.mem_neighbours.mp hnext)
    · exact h.listed _ (List.mem_cons_of_mem _ hentry)
  · by_cases hsame : id.index = other.index
    · obtain rfl : id = other := by cases id; cases other; exact congrArg ObjectId.mk hsame
      exact hreached
    · rw [Array.getElem?_modify, if_neg hsame] at hlabel
      exact h.labeled other label' hlabel
  · rw [Array.getElem?_modify]
    split
    · rename_i hsame
      have hid' : id.index < labels.size := h.sizes.2 ▸ hid
      rw [← hsame, Array.getElem?_eq_getElem hid']
      exact ⟨labels[id.index].getD label, by cases labels[id.index] <;> rfl⟩
    · rename_i hother'
      rw [Array.getElem?_setIfInBounds_ne hother'] at hother
      exact h.seen_labeled other hother
  · by_cases hsame : id.index = other.index
    · rw [← hsame, ho] at ho'
      cases ho'
      exact .inr ⟨label, List.mem_append_left _ (List.mem_map.mpr ⟨next, Object.mem_neighbours.mpr hleads, rfl⟩)⟩
    · rw [Array.getElem?_setIfInBounds_ne hsame] at hother
      exact hrest next (h.closed other hother o' ho' next hleads hsize)

/-! ## 3. How long the walk is -/

/-- How many links the objects have that have not been visited. -/
def pending : List Object → List Bool → Nat
  | o :: heap, visited :: seen => (if visited then 0 else o.neighbours.length) + pending heap seen
  | _, _ => 0

theorem pending_visit {o : Object} : ∀ {heap : List Object} {seen : List Bool} {i : Nat}, heap[i]? = some o →
    seen[i]? = some false → pending heap (seen.set i true) + o.neighbours.length = pending heap seen
  | _ :: _, _ :: _, 0, ho, hseen => by
    cases ho
    cases hseen
    simp only [List.set_cons_zero, pending, if_true, Bool.false_eq_true, if_false]
    omega
  | o' :: heap, visited :: seen, i + 1, ho, hseen => by
    have ih := @pending_visit _ heap seen i ho hseen
    simp only [List.set_cons_succ, pending]
    omega

theorem pending_start : ∀ (heap : List Object) (n : Nat),
    heap.foldl (fun n o => n + o.neighbours.length) n = n + pending heap (List.replicate heap.length false)
  | [], n => rfl
  | o :: heap, n => by
    rw [List.foldl_cons, pending_start heap]
    simp only [List.length_cons, List.replicate_succ, pending, Bool.false_eq_true, if_false]
    omega

/-- The walk goes on until nothing is listed, and a larger bound does not change what comes of it. -/
theorem walk_ends : ∀ {n : Nat} {l : List (ObjectId × String)} {seen : Array Bool} {labels : Array (Option String)},
    Underway heap globals l seen labels → l.length + pending heap.toList seen.toList ≤ n →
    ∃ seen' labels', Underway heap globals [] seen' labels' ∧ ∀ n', n ≤ n' → walk heap n' l seen labels = ([], labels')
  | 0, (_, _) :: _, _, _, _, hfuel => by
    rw [List.length_cons] at hfuel
    omega
  | fuel, [], seen, labels, h, _ => ⟨seen, labels, h, fun fuel' _ => by cases fuel' <;> rfl⟩
  | fuel + 1, (id, label) :: rest, seen, labels, h, hfuel => by
    rw [List.length_cons] at hfuel
    by_cases hseen : seen.getD id.index true = true
    · obtain ⟨seen', labels', hends, hmore⟩ := walk_ends (h.pass hseen) (n := fuel) (by omega)
      refine ⟨seen', labels', hends, fun fuel' hle => ?_⟩
      obtain ⟨fuel', rfl⟩ : ∃ k, fuel' = k + 1 := ⟨fuel' - 1, by omega⟩
      simpa only [walk, hseen, if_true] using hmore fuel' (by omega)
    · have hunseen : seen[id.index]? = some false := by
        rw [Array.getD_eq_getD_getElem?] at hseen
        cases hget : seen[id.index]? with
        | none => simp [hget] at hseen
        | some visited => simpa [hget] using hseen
      have hid : id.index < heap.size := h.sizes.1 ▸ (Array.getElem?_eq_some_iff.mp hunseen).1
      obtain ⟨o, ho⟩ : ∃ o, heap[id.index]? = some o := ⟨_, Array.getElem?_eq_getElem hid⟩
      have hpending := @pending_visit _ heap.toList seen.toList id.index (by simpa using ho) (by simpa using hunseen)
      have hobject : heap.getD id.index default = o := by rw [Array.getD_eq_getD_getElem?, ho]; rfl
      obtain ⟨seen', labels', hends, hmore⟩ := walk_ends (h.visit ho) (n := fuel) (by
        rw [Array.toList_setIfInBounds, List.length_append, List.length_map]
        omega)
      refine ⟨seen', labels', hends, fun fuel' hle => ?_⟩
      obtain ⟨fuel', rfl⟩ : ∃ k, fuel' = k + 1 := ⟨fuel' - 1, by omega⟩
      simpa only [walk, if_neg hseen, hobject] using hmore fuel' (by omega)

/-! ## 4. Sealing -/

/-- What is still listed after at most so many steps of the walk, and the labels of all objects. -/
def walkWithin (heap : Array Object) (globals : List (String × Value)) (fuel : Nat) :
    List (ObjectId × String) × Array (Option String) :=
  walk heap fuel (roots globals) (Array.replicate heap.size false)
    ((roots globals).foldr (fun entry labels => labels.setIfInBounds entry.1.index (some entry.2))
      (Array.replicate heap.size none))

/-- At the start only the roots have labels. -/
theorem index_of_own : ∀ {start : List (ObjectId × String)} {i : Nat} {label : String},
    (start.foldr (fun entry labels => labels.setIfInBounds entry.1.index (some entry.2))
      (Array.replicate heap.size (none : Option String)))[i]? = some (some label) → ∃ entry ∈ start, entry.1.index = i
  | [], i, label, h => by
    rw [List.foldr_nil, Array.getElem?_replicate] at h
    split at h <;> cases h
  | entry :: start, i, label, h => by
    by_cases hsame : entry.1.index = i
    · exact ⟨entry, List.mem_cons_self, hsame⟩
    · rw [List.foldr_cons, Array.getElem?_setIfInBounds_ne hsame] at h
      obtain ⟨other, hother, hi⟩ := index_of_own h
      exact ⟨other, List.mem_cons_of_mem _ hother, hi⟩

theorem underway_start : Underway heap globals (roots globals) (Array.replicate heap.size false)
    ((roots globals).foldr (fun entry labels => labels.setIfInBounds entry.1.index (some entry.2))
      (Array.replicate heap.size none)) := by
  have hreached : ∀ entry ∈ roots globals, Reaches heap globals entry.1 := by
    intro entry hentry
    rcases mem_roots.mp ⟨entry.2, hentry⟩ with ⟨name, hglobal⟩ | hroot | hroot
    · exact .global hglobal
    · exact hroot ▸ .objectPrototype
    · exact hroot ▸ .functionPrototype
  have hunseen : ∀ id : ObjectId, (Array.replicate heap.size false)[id.index]? ≠ some true := by
    intro id h
    rw [Array.getElem?_replicate] at h
    split at h <;> cases h
  have hsize := size_labelsOf heap globals
  rw [labelsOf, size_walk] at hsize
  refine ⟨⟨Array.size_replicate, hsize⟩, hreached, fun id label hlabel => ?_, fun id hid => absurd hid (hunseen id),
    fun entry hentry _ => .inr ⟨entry.2, hentry⟩, fun id hid => absurd hid (hunseen id)⟩
  obtain ⟨entry, hentry, hindex⟩ := index_of_own hlabel
  obtain rfl : entry.1 = id := by cases id; cases h : entry.1; rw [h] at hindex; exact congrArg ObjectId.mk hindex
  exact hreached entry hentry

/-- When nothing is listed any more, everything that can be reached has a label. -/
theorem Underway.visited (h : Underway heap globals [] seen labels) (hreached : Reaches heap globals id)
    (hid : id.index < heap.size) : seen[id.index]? = some true := by
  have hroot : ∀ id : ObjectId, (∃ label, (id, label) ∈ roots globals) → id.index < heap.size →
      seen[id.index]? = some true := by
    rintro id ⟨label, hlabel⟩ hid
    exact (h.started _ hlabel hid).resolve_right (by simp)
  induction hreached with
  | global hglobal => exact hroot _ (mem_roots.mpr (.inl ⟨_, hglobal⟩)) hid
  | objectPrototype => exact hroot _ (mem_roots.mpr (.inr (.inl rfl))) hid
  | functionPrototype => exact hroot _ (mem_roots.mpr (.inr (.inr rfl))) hid
  | link _ ho hleads ih =>
    have hsource := ih (Array.getElem?_eq_some_iff.mp ho).1
    exact (h.closed _ hsource _ ho _ hleads hid).resolve_right (by simp)

end Realm

/-- **Sealing protects what can be reached, and nothing else**: the walk ends by itself, with nothing left to visit, so
that no larger bound changes what it gives, and an object of the heap has a label afterwards exactly if values of global
names, or one of the roots of all prototypes, lead to it. -/
theorem Machine.sealed_protects (m : Machine) :
    (∃ bound, ∀ fuel, bound ≤ fuel → Realm.walkWithin m.heap m.realm.globals fuel = ([], m.sealed.realm.labels)) ∧
      ∀ id, m.sealed.realm.label? id ≠ none ↔
        Realm.Reaches m.heap m.realm.globals id ∧ id.index < m.heap.size := by
  have hlabels : m.sealed.realm.labels = Realm.labelsOf m.heap m.realm.globals := rfl
  have hbound := Realm.pending_start m.heap.toList (Realm.roots m.realm.globals).length
  obtain ⟨seen, labels, hends, hmore⟩ := Realm.walk_ends (@Realm.underway_start m.heap m.realm.globals)
    (n := m.heap.foldl (fun n o => n + o.neighbours.length) (Realm.roots m.realm.globals).length + 1) (by
      rw [← Array.foldl_toList, hbound, Array.toList_replicate]
      exact Nat.le_succ _)
  obtain rfl : Realm.labelsOf m.heap m.realm.globals = labels := congrArg Prod.snd (hmore _ (Nat.le_refl _))
  refine ⟨⟨_, hmore⟩, fun id => ?_⟩
  rw [Realm.label?, hlabels]
  constructor
  · intro hlabel
    cases hget : (Realm.labelsOf m.heap m.realm.globals)[id.index]? with
    | none => simp [hget] at hlabel
    | some o =>
      cases o with
      | none => simp [hget] at hlabel
      | some label =>
        exact ⟨hends.labeled id label hget, hends.sizes.2 ▸ (Array.getElem?_eq_some_iff.mp hget).1⟩
  · rintro ⟨hreached, hid⟩
    obtain ⟨label, hlabel⟩ := hends.seen_labeled id (hends.visited hreached hid)
    change (Realm.labelsOf m.heap m.realm.globals)[id.index]? = some (some label) at hlabel
    simp [hlabel]

end GuestScript
