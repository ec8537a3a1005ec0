import GuestScript.Object.Store
import GuestScript.Proofs.Object.Keys

/-!
# Stores in step

An object in stores (`Stores`) and an object with one list of properties are compared by `Stores.Shows`: the names of
the list are the list of names, what is stored under a name is what the map has for it, and the symbols of the list are
the list of symbols. Each operation on the stores and the one on the object keep that and give the same answer
(`Shows.define`, `Shows.delete`), so the stores stay in step with each other from a new object on.
-/

namespace GuestScript

open Object (Operation under? DistinctKeys SameKeys)

/-- The symbol and the property of an entry that has a symbol. -/
def symbolEntry? : Key × Property → Option (Symbol × Property)
  | (.symbol s, p) => some (s, p)
  | (.string _, _) => none

namespace Stores

variable {o : Object} {k : Stores} {entries front back : List (Key × Property)} {e : Key × Property} {name : String}
  {s : Symbol} {p : Property}

/-- Whether some entries are what is in the stores. -/
structure Holds (k : Stores) (entries : List (Key × Property)) : Prop where
  order : entries.filterMap (fun e => e.1.name?) = k.order
  map : ∀ name, under? entries (.string name) = k.map[name]?
  symbols : entries.filterMap symbolEntry? = k.symbols

/-! ## 1. Names -/

theorem Holds.addNamed (h : k.Holds entries) (hnone : ∀ e ∈ entries, e.1.same (.string name) = false) (p : Property) :
    Holds { k with order := k.order ++ [name], map := k.map.insert name p } (entries ++ [(.string name, p)]) where
  order := by
    rw [List.filterMap_append, h.order]
    rfl
  map name' := by
    rw [Object.under?_added hnone, h.map, Std.HashMap.getElem?_insert]
    rfl
  symbols := by
    rw [List.filterMap_append, h.symbols]
    exact List.append_nil _

theorem eq_of_same_name (he : e.1.same (.string name) = true) : e.1 = .string name := by
  obtain ⟨_ | _, q⟩ := e
  · exact congrArg Key.string (eq_of_beq he)
  · exact absurd he Bool.false_ne_true

theorem Holds.setNamed (h : k.Holds (front ++ e :: back)) (he : e.1.same (.string name) = true)
    (hfront : ∀ x ∈ front, x.1.same (.string name) = false) (p : Property) :
    Holds { k with map := k.map.insert name p } (front ++ (.string name, p) :: back) where
  order := by
    rw [← h.order, List.filterMap_append, List.filterMap_append, List.filterMap_cons, List.filterMap_cons,
      eq_of_same_name he]
  map name' := by
    rw [Object.under?_replaced he hfront, h.map, Std.HashMap.getElem?_insert]
    rfl
  symbols := by
    obtain ⟨key, q⟩ := e
    obtain rfl : key = .string name := eq_of_same_name he
    rw [← h.symbols, List.filterMap_append, List.filterMap_append]
    rfl

theorem Holds.dropNamed (h : k.Holds (front ++ e :: back)) (he : e.1.same (.string name) = true)
    (hrest : ∀ x ∈ front ++ back, x.1.same (.string name) = false) :
    Holds { k with map := k.map.erase name, order := k.order.filter fun n => n != name } (front ++ back) where
  order := by
    have hkept : (front ++ back).filterMap (fun x => x.1.name?) =
        ((front ++ back).filterMap fun x => x.1.name?).filter fun n => n != name := by
      refine (List.filter_eq_self.mpr fun n hn => bne_iff_ne.mpr fun heq => ?_).symm
      obtain ⟨x, hx, hkey⟩ := List.mem_filterMap.mp hn
      have hother := hrest x hx
      rw [Key.eq_of_name? hkey, heq, Key.same_self] at hother
      exact Bool.true_eq_false_eq_False hother
    rw [hkept, ← h.order, List.filterMap_append, List.filterMap_append, List.filterMap_cons, eq_of_same_name he]
    simp only [Key.name?, List.filter_append, List.filter_cons, bne_self_eq_false, Bool.false_eq_true, if_false]
  map name' := by
    rw [Std.HashMap.getElem?_erase, ← h.map]
    split
    · rename_i heq
      obtain rfl := eq_of_beq heq
      exact Object.under?_eq_none hrest
    · rename_i hne
      have hother : Key.same (.string name) (.string name') = false := Bool.eq_false_iff.mpr hne
      rw [Object.under?_elsewhere ((Key.same_congr he _).trans hother)]
  symbols := by
    obtain ⟨key, q⟩ := e
    obtain rfl : key = .string name := eq_of_same_name he
    rw [← h.symbols, List.filterMap_append, List.filterMap_append]
    rfl

/-! ## 2. Symbols -/

theorem find?_symbols (entries : List (Key × Property)) (s : Symbol) :
    ((entries.filterMap symbolEntry?).find? fun entry => entry.1.same s).map Prod.snd = under? entries (.symbol s) := by
  induction entries with
  | nil => rfl
  | cons e rest ih =>
    obtain ⟨_ | t, p⟩ := e
    · rw [Object.under?_cons]
      exact ih
    · rw [Object.under?_cons]
      change Option.map _ (List.find? _ ((t, p) :: rest.filterMap symbolEntry?)) = if t.same s = true then _ else _
      rw [List.find?_cons]
      cases t.same s with
      | true => rfl
      | false => exact ih

theorem symbols_ne (h : ∀ e ∈ entries, e.1.same (.symbol s) = false) :
    ∀ x ∈ entries.filterMap symbolEntry?, x.1.same s = false := by
  intro x hx
  obtain ⟨⟨_ | t, q⟩, he, hentry⟩ := List.mem_filterMap.mp hx
  · cases hentry
  · obtain rfl := Option.some.inj hentry
    exact h _ he

theorem Holds.addSymbol (h : k.Holds entries) (hnone : ∀ e ∈ entries, e.1.same (.symbol s) = false) (p : Property) :
    Holds (k.insertSymbol s p) (entries ++ [(.symbol s, p)]) := by
  have hfind : k.symbols.findIdx? (fun entry => entry.1.same s) = none := by
    rw [← h.symbols]
    exact List.findIdx?_eq_none_iff.mpr (symbols_ne hnone)
  rw [insertSymbol, hfind]
  refine ⟨?_, fun name => ?_, ?_⟩
  · rw [List.filterMap_append, h.order]
    exact List.append_nil _
  · rw [Object.under?_added hnone, h.map]
    rfl
  · rw [List.filterMap_append, h.symbols]
    rfl

theorem Holds.setSymbol (h : k.Holds (front ++ e :: back)) (he : e.1.same (.symbol s) = true)
    (hfront : ∀ x ∈ front, x.1.same (.symbol s) = false) (p : Property) :
    Holds (k.insertSymbol s p) (front ++ (.symbol s, p) :: back) := by
  obtain ⟨_ | t, q⟩ := e
  · exact absurd he Bool.false_ne_true
  have hsymbols : k.symbols = front.filterMap symbolEntry? ++ (t, q) :: back.filterMap symbolEntry? := by
    rw [← h.symbols, List.filterMap_append]
    rfl
  have hfind : k.symbols.findIdx? (fun entry => entry.1.same s) = some (front.filterMap symbolEntry?).length := by
    have ht : t.same s = true := he
    rw [hsymbols, List.findIdx?_append, List.findIdx?_eq_none_iff.mpr (symbols_ne hfront), List.findIdx?_cons, ht]
    simp
  rw [insertSymbol, hfind]
  refine ⟨?_, fun name => ?_, ?_⟩
  · rw [← h.order, List.filterMap_append, List.filterMap_append]
    rfl
  · rw [Object.under?_replaced he hfront, h.map]
    rfl
  · dsimp only
    rw [hsymbols, List.filterMap_append, List.set_append_right _ _ (Nat.le_refl _), Nat.sub_self]
    rfl

theorem Holds.dropSymbol (h : k.Holds (front ++ e :: back)) (he : e.1.same (.symbol s) = true)
    (hfront : ∀ x ∈ front, x.1.same (.symbol s) = false) :
    Holds { k with symbols := k.symbols.eraseP fun entry => entry.1.same s } (front ++ back) := by
  obtain ⟨_ | t, q⟩ := e
  · exact absurd he Bool.false_ne_true
  refine ⟨?_, fun name => ?_, ?_⟩
  · rw [← h.order, List.filterMap_append, List.filterMap_append]
    rfl
  · rw [← h.map, Object.under?_elsewhere (e := (.symbol t, q)) rfl]
  · have hnone : ∀ x ∈ front.filterMap symbolEntry?, ¬x.1.same s = true := fun x hx => by
      simp [symbols_ne hfront x hx]
    rw [← h.symbols, List.filterMap_append, List.filterMap_append, List.eraseP_append_right _ hnone]
    exact congrArg _ (List.eraseP_cons_of_pos (a := (t, q)) (p := fun entry => entry.1.same s) he).symm

/-! ## 3. Operations -/

/-- Whether an object shows what is in the stores. -/
structure Shows (k : Stores) (o : Object) : Prop where
  slots : k.slots = { o with properties := #[] }
  holds : k.Holds o.properties.toList
  distinct : DistinctKeys o.keys

/-- Whether an operation on the stores has the answer of the one on the object, and what it leaves is shown. -/
def Agree (a : Stores × Bool) (b : Object × Bool) : Prop :=
  a.1.Shows b.1 ∧ a.2 = b.2

namespace Shows

variable (h : k.Shows o)
include h

theorem elements : k.slots.elements = o.elements := by
  rw [h.slots]

theorem extensible : k.slots.extensible = o.extensible := by
  rw [h.slots]

theorem frozen : k.slots.frozen = o.frozen := by
  rw [h.slots]

theorem text? : k.slots.text? = o.text? := by
  rw [h.slots]
  rfl

theorem symbol? (s : Symbol) : k.symbol? s = o.stored? (.symbol s) := by
  rw [Stores.symbol?, ← h.holds.symbols, find?_symbols, Object.stored?_eq]

theorem name? (name : String) : k.map[name]? = o.stored? (.string name) := by
  rw [← h.holds.map, Object.stored?_eq]

theorem own? (key : Key) : k.own? key = o.own? key := by
  cases key with
  | symbol s => exact h.symbol? s
  | string name =>
    have hvirtual : k.slots.virtual? name = o.virtual? name := congrArg (fun o => o.virtual? name) h.slots
    cases hv : o.virtual? name with
    | some p => simp only [Stores.own?, Object.own?, hvirtual, hv]
    | none => simp only [Stores.own?, Object.own?, hvirtual, hv, h.name?]

theorem hasOwn (key : Key) : k.hasOwn key = o.hasOwn key := by
  rw [Stores.hasOwn, Object.hasOwn, h.own?]

theorem contains (name : String) : k.map.contains name = (o.find? (.string name)).isSome := by
  rw [← Std.HashMap.isSome_getElem?_eq_contains, h.name?, Object.stored?, Option.isSome_map, Object.find?,
    Array.findIdx?_isSome, Bool.eq_iff_iff, Array.find?_isSome, Array.any_eq_true']

theorem withElements (elements : Array Value) : (k.withElements elements).Shows { o with elements := some elements } :=
  ⟨by rw [Stores.withElements, h.slots], ⟨h.holds.order, h.holds.map, h.holds.symbols⟩, h.distinct⟩

theorem agree {taken : Bool} : Agree (k, taken) (o, taken) := ⟨h, rfl⟩

theorem storeSymbol (s : Symbol) (p : Property) : (k.insertSymbol s p).Shows (o.store (.symbol s) p) := by
  have hslots : (k.insertSymbol s p).slots = { o with properties := #[] } := by
    rw [← h.slots, Stores.insertSymbol]
    split <;> rfl
  have hdistinct := (o.keyChange_store (.symbol s) p).distinct h.distinct
  have hholds := h.holds
  rcases o.store_cases (.symbol s) p with ⟨hnone, hstore⟩ | ⟨front, e, back, hsplit, hkey, hfront, hstore⟩
  · rw [hstore] at hdistinct ⊢
    exact ⟨hslots, hholds.addSymbol hnone p, hdistinct⟩
  · rw [hstore] at hdistinct ⊢
    rw [hsplit] at hholds
    exact ⟨hslots, hholds.setSymbol hkey hfront p, hdistinct⟩

theorem defineSymbol (s : Symbol) (d : Descriptor) : Agree (k.defineSymbol s d) (o.defineStored (.symbol s) d) := by
  rw [Stores.defineSymbol, Object.defineStored_eq, h.symbol?, h.extensible]
  cases o.stored? (.symbol s) with
  | some current =>
    dsimp only
    split_ifs
    · exact h.agree
    · exact ⟨h.storeSymbol s _, rfl⟩
  | none =>
    dsimp only
    split_ifs
    · exact ⟨h.storeSymbol s _, rfl⟩
    · exact h.agree

theorem deleteSymbol (s : Symbol) : Agree (k.deleteSymbol s) (o.deleteStored (.symbol s)) := by
  have hdistinct := (o.keyChange_deleteStored (.symbol s)).distinct h.distinct
  have hholds := h.holds
  rw [Stores.deleteSymbol, h.symbol?, Object.stored?_eq]
  rcases o.deleteStored_cases (.symbol s) with ⟨hnone, hdelete⟩ | ⟨front, e, back, hsplit, hkey, hfront, hdelete⟩
  · rw [hdelete, Object.under?_eq_none hnone]
    exact h.agree
  · rw [hdelete] at hdistinct ⊢
    rw [hsplit] at hholds ⊢
    rw [Object.under?_here hkey hfront]
    dsimp only
    split_ifs at hdistinct ⊢
    · exact ⟨⟨h.slots, hholds.dropSymbol hkey hfront, hdistinct⟩, rfl⟩
    · exact h.agree

/-- Putting a property into the map changes the list of names if the name is new. -/
theorem storeNamed (name : String) (p : Property) :
    (∀ q, o.stored? (.string name) = some q →
      Shows { k with map := k.map.insert name p } (o.store (.string name) p)) ∧
    (o.stored? (.string name) = none →
      Shows { k with order := k.order ++ [name], map := k.map.insert name p } (o.store (.string name) p)) := by
  have hdistinct := (o.keyChange_store (.string name) p).distinct h.distinct
  have hholds := h.holds
  rw [Object.stored?_eq]
  rcases o.store_cases (.string name) p with ⟨hnone, hstore⟩ | ⟨front, e, back, hsplit, hkey, hfront, hstore⟩
  · rw [hstore] at hdistinct ⊢
    rw [Object.under?_eq_none hnone]
    exact ⟨fun q hq => absurd hq.symm (Option.some_ne_none q), fun _ => ⟨h.slots, hholds.addNamed hnone p, hdistinct⟩⟩
  · rw [hstore] at hdistinct ⊢
    rw [hsplit] at hholds ⊢
    rw [Object.under?_here hkey hfront]
    exact ⟨fun _ _ => ⟨h.slots, hholds.setNamed hkey hfront p, hdistinct⟩,
      fun hnone => absurd hnone (Option.some_ne_none _)⟩

theorem insertNamed (name : String) (p : Property) : (k.insertNamed name p).Shows (o.store (.string name) p) := by
  have hcontains : k.map.contains name = (o.stored? (.string name)).isSome := by
    rw [← h.name?, Std.HashMap.isSome_getElem?_eq_contains]
  rw [Stores.insertNamed, hcontains]
  cases hstored : o.stored? (.string name) with
  | some q => exact (h.storeNamed name p).1 q hstored
  | none => exact (h.storeNamed name p).2 hstored

theorem defineEntry (name : String) (d : Descriptor) :
    Agree (k.defineEntry name d) (o.defineStored (.string name) d) := by
  rw [Stores.defineEntry, Object.defineStored_eq, h.name?, h.extensible]
  cases hstored : o.stored? (.string name) with
  | some current =>
    dsimp only
    split_ifs
    · exact h.agree
    · exact ⟨(h.storeNamed name _).1 current hstored, rfl⟩
  | none =>
    dsimp only
    split_ifs
    · exact ⟨(h.storeNamed name _).2 hstored, rfl⟩
    · exact h.agree

theorem defineNamed (name : String) (d : Descriptor) : Agree (k.defineNamed name d) (o.defineNamed name d) := by
  rw [Stores.defineNamed, Object.defineNamed, h.text?]
  cases o.text? with
  | none => exact h.defineEntry name d
  | some s =>
    dsimp only [Option.bind_some]
    split
    · exact h.agree
    · exact h.defineEntry name d

theorem deleteEntry (name : String) : Agree (k.deleteEntry name) (o.deleteStored (.string name)) := by
  have hdistinct := (o.keyChange_deleteStored (.string name)).distinct h.distinct
  have hholds := h.holds
  rw [Stores.deleteEntry, h.name?, Object.stored?_eq]
  rcases o.deleteStored_cases (.string name) with ⟨hnone, hdelete⟩ | ⟨front, e, back, hsplit, hkey, hfront, hdelete⟩
  · rw [hdelete, Object.under?_eq_none hnone]
    exact h.agree
  · rw [hdelete] at hdistinct ⊢
    have hbefore := List.pairwise_map.mp h.distinct
    rw [hsplit] at hholds hbefore ⊢
    obtain ⟨-, hback, -⟩ := Object.same_of_distinct hbefore hkey
    rw [Object.under?_here hkey hfront]
    dsimp only
    split_ifs at hdistinct ⊢
    · refine ⟨⟨h.slots, hholds.dropNamed hkey fun x hx => ?_, hdistinct⟩, rfl⟩
      rcases List.mem_append.mp hx with hx | hx
      · exact hfront x hx
      · exact (Key.same_comm _ _).trans (hback x hx)
    · exact h.agree

theorem deleteNamed (name : String) : Agree (k.deleteNamed name) (o.deleteNamed name) := by
  rw [Stores.deleteNamed, Object.deleteNamed, h.text?, h.hasOwn]
  cases o.text? with
  | none => exact h.deleteEntry name
  | some s =>
    rw [Option.isSome_some, Bool.true_and]
    dsimp only
    split
    · exact h.agree
    · exact h.deleteEntry name

theorem insert (name : String) (p : Property) : (k.insert name p).Shows (o.insert name p) := by
  rw [Stores.insert, Object.insert, h.elements]
  have hnamed := h.insertNamed name p
  cases o.elements with
  | none => exact hnamed
  | some elements =>
    cases Text.index? name with
    | none => exact hnamed
    | some i =>
      cases p.content with
      | accessor getter setter => exact hnamed
      | data value writable =>
        dsimp only
        split_ifs
        · exact h.withElements _
        · exact hnamed

theorem defineLength (elements : Array Value) (d : Descriptor) :
    Agree ({ k with slots := (k.slots.defineLength elements d).1 }, (k.slots.defineLength elements d).2)
      (o.defineLength elements d) := by
  unfold Object.defineLength
  split
  · split_ifs
    · exact ⟨⟨by rw [h.slots], ⟨h.holds.order, h.holds.map, h.holds.symbols⟩, h.distinct⟩, rfl⟩
    · exact h.agree
  · exact h.agree

theorem define (key : Key) (d : Descriptor) : Agree (k.define key d) (o.define key d) := by
  cases key with
  | symbol s => exact h.defineSymbol s d
  | string name =>
    rw [Stores.define, Object.define, h.elements, h.frozen, h.contains, h.extensible]
    cases o.elements with
    | none => exact h.defineNamed name d
    | some elements =>
      have hnamed := h.defineNamed name d
      cases Text.index? name with
      | none =>
        dsimp only
        split_ifs
        · exact h.agree
        · exact h.defineLength elements d
        · exact hnamed
      | some i =>
        dsimp only [Object.defineElement]
        split_ifs
        · exact h.agree
        · exact h.defineLength elements d
        · exact h.agree
        · exact hnamed
        · exact h.agree
        · exact h.agree
        · exact ⟨h.withElements _, rfl⟩
        · exact hnamed

theorem delete (key : Key) : Agree (k.delete key) (o.delete key) := by
  cases key with
  | symbol s => exact h.deleteSymbol s
  | string name =>
    simp only [Stores.delete, Object.delete, h.elements, h.frozen]
    cases o.elements with
    | none => exact h.deleteNamed name
    | some elements =>
      cases Text.index? name with
      | none =>
        dsimp only
        split_ifs
        · exact h.agree
        · exact h.deleteNamed name
      | some i =>
        dsimp only
        split_ifs
        · exact h.agree
        · exact h.agree
        · exact ⟨h.withElements _, rfl⟩
        · exact h.deleteNamed name

/-! ## 4. Keys -/

theorem ownKeys : k.ownKeys = o.ownKeys := by
  have hindices : (k.order.filterMap fun name => (Text.index? name).map fun i => (i, name)) =
      o.properties.toList.filterMap fun e => e.1.name?.bind fun name => (Text.index? name).map fun i => (i, name) := by
    rw [← h.holds.order, List.filterMap_filterMap]
  have hnames : (k.order.filter fun name => (Text.index? name).isNone) = o.nameKeys := by
    rw [← h.holds.order, List.filter_filterMap]
    rfl
  have hsymbols : k.symbols.map (fun entry => Key.symbol entry.1) = o.symbolKeys.map Key.symbol := by
    rw [← h.holds.symbols, List.map_filterMap, Object.symbolKeys, List.map_filterMap]
    refine List.filterMap_congr fun e _ => ?_
    obtain ⟨_ | _, q⟩ := e <;> rfl
  simp only [Stores.ownKeys, Object.ownKeys, Object.stringKeys, Object.indexKeys, h.elements, h.text?, hindices, hnames,
    hsymbols]

end Shows

/-- What an operation makes of an object. -/
def apply (k : Stores) : Operation → Stores
  | .define key d => (k.define key d).1
  | .insert name p => k.insert name p
  | .insertSymbol s p => k.insertSymbol s p
  | .delete key => (k.delete key).1
  | .replace elements => { k with slots := { k.slots with elements := k.slots.elements.map fun _ => elements } }

/-- The object after some operations, one after the other. -/
def operate (k : Stores) (operations : List Operation) : Stores :=
  operations.foldl apply k

/-- Each operation keeps what the object shows. -/
theorem Shows.apply (h : k.Shows o) (op : Operation) : (k.apply op).Shows (op.apply o) := by
  cases op with
  | define key d => exact (h.define key d).1
  | insert name p => exact h.insert name p
  | insertSymbol s p => exact h.storeSymbol s p
  | delete key => exact (h.delete key).1
  | replace elements =>
    refine ⟨?_, ⟨h.holds.order, h.holds.map, h.holds.symbols⟩, h.distinct⟩
    simp only [Stores.apply, Operation.apply, h.slots]

theorem Shows.operate (h : k.Shows o) (operations : List Operation) :
    (k.operate operations).Shows (o.operate operations) := by
  induction operations generalizing k o with
  | nil => exact h
  | cons op rest ih => exact ih (h.apply op)

/-- An object without stored properties has empty stores. -/
theorem shows_new (hnew : o.properties = #[]) : Shows { slots := o } o where
  slots := by rw [← hnew]
  holds := by
    rw [hnew]
    exact ⟨rfl, fun name => Std.HashMap.getElem?_empty.symm, rfl⟩
  distinct := by
    rw [Object.keys, hnew]
    exact .nil

/-! ## 5. The stores are in step -/

/-- Whether the list of names has the names of the map once each, and the list of symbols each symbol once. -/
structure InStep (k : Stores) : Prop where
  order : k.order.Nodup
  mem_iff : ∀ name, name ∈ k.order ↔ name ∈ k.map
  symbols : k.symbols.Pairwise fun a b => a.1.same b.1 = false

theorem Shows.inStep (h : k.Shows o) : k.InStep where
  order := by
    rw [← h.holds.order]
    refine List.Pairwise.filterMap _ (fun a b hne s hs t ht heq => ?_) (List.pairwise_map.mp h.distinct)
    rw [Key.eq_of_name? hs, Key.eq_of_name? ht, heq, Key.same_self] at hne
    exact Bool.true_eq_false_eq_False hne
  mem_iff name := by
    rw [Std.HashMap.mem_iff_isSome_getElem?, ← h.holds.map, ← h.holds.order, List.mem_filterMap, under?,
      Option.isSome_map, List.find?_isSome]
    refine exists_congr fun e => and_congr_right fun _ => ?_
    obtain ⟨_ | _, q⟩ := e <;> simp [Key.name?, Key.same]
  symbols := by
    rw [← h.holds.symbols]
    refine List.Pairwise.filterMap _ (fun a b hne s hs t ht => ?_) (List.pairwise_map.mp h.distinct)
    obtain ⟨_ | _, q⟩ := a
    · cases hs
    obtain ⟨_ | _, r⟩ := b
    · cases ht
    obtain rfl := Option.some.inj hs
    obtain rfl := Option.some.inj ht
    exact hne

/-! ## 6. The order of keys -/

/-- The keys that become own properties by some operations, in the order in which they were last created: a key that
becomes own comes last, and one that is gone is dropped. -/
def created (k : Stores) (keys : List Key) : List Operation → List Key
  | [] => keys
  | op :: rest =>
    (k.apply op).created
      (keys.filter (k.apply op).hasOwn ++
        op.key?.toList.filter fun key => (k.apply op).hasOwn key && !k.hasOwn key) rest

/-- How an object lists its own properties: each once, the indices in ascending order, then the other names and then
the symbols, both in the order in which they were created. -/
structure Lists (k : Stores) (created : List Key) : Prop where
  distinct : DistinctKeys k.ownKeys
  own_iff : ∀ key, k.hasOwn key = true ↔ ∃ listed ∈ k.ownKeys, listed.same key = true
  order : ∃ indices : List Nat, indices.Pairwise (· < ·) ∧ (∀ i ∈ indices, i < Text.indexBound) ∧
    SameKeys k.ownKeys
      ((indices.map fun i => .string (toString i)) ++ created.filter Object.isOtherName ++
        created.filter Object.isSymbol)

namespace Shows

/-- The keys that were created are the stored ones. -/
theorem sameKeys_created (h : k.Shows o) (ho : o.Plain) {known : List Key} (hknown : SameKeys known o.keys)
    (operations : List Operation) : SameKeys (k.created known operations) (o.operate operations).keys := by
  induction operations generalizing k o known with
  | nil => exact hknown
  | cons op rest ih =>
    have hown : (k.apply op).hasOwn = Object.holds (op.apply o).keys := funext fun key =>
      ((h.apply op).hasOwn key).trans ((ho.apply op).hasOwn_eq key)
    have hown' : k.hasOwn = Object.holds o.keys := funext fun key => (h.hasOwn key).trans (ho.hasOwn_eq key)
    refine ih (h.apply op) (ho.apply op) ?_
    rw [hown, hown']
    exact (o.keyChange_apply op).sameKeys h.distinct hknown

theorem lists (h : k.Shows o) (ho : o.Plain) {created : List Key} (hcreated : SameKeys created o.keys) :
    k.Lists created where
  distinct := by
    rw [h.ownKeys]
    exact (ho.ownKeys_perm.pairwise_iff fun {a b} h => (b.same_comm a).trans h).mpr h.distinct
  own_iff key := by
    rw [h.hasOwn, h.ownKeys, ho.hasOwn_eq, Object.holds, List.any_eq_true]
    simp only [ho.ownKeys_perm.mem_iff]
  order := by
    refine ⟨o.indexKeys.map Prod.fst, Object.indexKeys_ascend h.distinct, fun i hi => ?_, ?_⟩
    · obtain ⟨p, hp, rfl⟩ := List.mem_map.mp hi
      exact (Text.index?_eq_some_iff.mp (Object.mem_indexKeys hp)).2
    · have hindices : (o.indexKeys.map fun p => Key.string p.2) =
          (o.indexKeys.map Prod.fst).map fun i => .string (toString i) := by
        rw [List.map_map]
        refine List.map_congr_left fun p hp => ?_
        exact congrArg Key.string (Text.index?_eq_some_iff.mp (Object.mem_indexKeys hp)).1
      have hkeys : SameKeys o.keys created := List.Forall₂.flip (hcreated.imp fun a b h => (b.same_comm a).trans h)
      rw [h.ownKeys, Object.ownKeys_eq ho.text, ho.virtualKeys_eq.1, ho.virtualKeys_eq.2, hindices, List.nil_append,
        List.append_nil]
      refine List.rel_append (List.rel_append (List.forall₂_same.mpr fun k _ => k.same_self) ?_) ?_
      · exact List.rel_filter (fun a b h => by dsimp only; rw [Object.isOtherName_congr h]) hkeys
      · exact List.rel_filter (fun a b h => by dsimp only; rw [Object.isSymbol_congr h]) hkeys

end Shows

/-- **The stores stay in step.** After every sequence of operations on an object that was made without stored
properties, the list of names has the names of the map once each and the list of symbols has each symbol once, and the
object with one list shows what is in the stores. If the object is no array and wraps no string it lists its keys once
each, the names and the symbols in the order in which they were last created. -/
theorem operate_inStep {o : Object} (hnew : o.properties = #[]) (operations : List Operation) :
    (operate { slots := o } operations).InStep ∧ (operate { slots := o } operations).Shows (o.operate operations) ∧
      (o.Plain → (operate { slots := o } operations).Lists (created { slots := o } [] operations)) := by
  have hshows := (shows_new hnew).operate operations
  refine ⟨hshows.inStep, hshows, fun ho => hshows.lists (ho.operate operations) ?_⟩
  refine (shows_new hnew).sameKeys_created ho ?_ operations
  rw [Object.keys, hnew]
  exact .nil

/-- A name that is made, deleted and made again, and an index that is made in between. -/
def remade : List Operation :=
  [.define (.string "b") (.ordinary .null), .insert "a" (.ordinary .null), .delete (.string "b"),
    .define (.string "7") (.ordinary .null), .define (.string "b") (.ordinary .null)]

theorem operate_inStep_remade :
    ({} : Object).properties = #[] ∧ ({} : Object).Plain ∧ (operate { slots := {} } remade).InStep ∧
      (operate { slots := {} } remade).Shows (({} : Object).operate remade) ∧
      (operate { slots := {} } remade).Lists (created { slots := {} } [] remade) := by
  have ho : ({} : Object).Plain := ⟨rfl, rfl⟩
  obtain ⟨hstep, hshows, hlists⟩ := operate_inStep (o := {}) rfl remade
  exact ⟨rfl, ho, hstep, hshows, hlists ho⟩

/-- The index comes first, and the name that was made again comes last. -/
example : (({} : Object).operate remade).stringKeys = ["7", "a", "b"] := by
  cbv

end Stores

end GuestScript
