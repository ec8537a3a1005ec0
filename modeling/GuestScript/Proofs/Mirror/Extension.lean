import GuestScript.Proofs.Mirror.State

/-!
# Embeddings that leave things where they are

An embedding *extends* another one if all that is within reach along that one is within reach along it, too, and is not
moved by it. Values, objects, registers and all else that mentions addresses is kept as it is then.
-/

namespace GuestScript

/-- Whether an embedding leaves everything where it is that is within reach along another one. -/
structure Embedding.Extends (e e₀ : Embedding) : Prop where
  object : ∀ {id}, e₀.Open id → e.Open id ∧ e.object id = id
  closed : ∀ {id}, e₀.Closed id → e.Closed id ∧ e.object id = id
  scope : ∀ {id}, e₀.Scoped id → e.Scoped id ∧ e.scope id = id
  serial : ∀ n, e.serial n = n
  sets : e.Sets = e₀.Sets

/-- What is left where it is by embeddings that extend others. -/
class Carried.Lawful (α : Type) [Carried α] : Prop where
  kept : ∀ {e e₀ : Embedding} {a : α}, e.Extends e₀ → Within e₀ a → Within e a ∧ image e a = a

variable {e e₀ : Embedding}

theorem Embedding.Extends.kept {α : Type} [Carried α] [Carried.Lawful α] {a : α} (h : e.Extends e₀)
    (ha : Within e₀ a) : Within e a ∧ image e a = a :=
  Carried.Lawful.kept h ha

theorem image_classFunction (data : ClassFunction) : image e data =
    { data with
      constructor := image e data.constructor, parent := image e data.parent,
      fields := image e data.fields, scope := image e data.scope } := rfl

theorem Object.image_eq (o : Object) : image e o =
    { o with
      properties := image e o.properties, prototype := image e o.prototype,
      callable := image e o.callable, elements := image e o.elements,
      primitive := image e o.primitive, mapEntries := image e o.mapEntries,
      setEntries := image e o.setEntries } := rfl

theorem Registers.image_eq (r : Registers) : image e r =
    { r with
      scope := image e r.scope, receiver := image e r.receiver, result := image e r.result,
      newTarget := image e r.newTarget, joining := image e r.joining } := rfl

theorem Rules.image_eq (r : Rules) : image e r =
    { r with rootContext := image e r.rootContext, plainReceiver := image e r.plainReceiver } := rfl

namespace Carried

/-! ## 1. Containers -/

section

variable {α β : Type} [Carried α] [Lawful α] [Carried β] [Lawful β]

instance : Lawful (Option α) where
  kept {e e₀ o} h ho := by
    cases o with
    | none => exact ⟨within_none, rfl⟩
    | some a =>
      obtain ⟨hwithin, himage⟩ := h.kept (within_some.mp ho)
      exact ⟨within_some.mpr hwithin, congrArg some himage⟩

instance : Lawful (List α) where
  kept {e e₀ l} h hl := by
    refine ⟨fun a ha => (h.kept (hl a ha)).1, ?_⟩
    calc image e l = l.map id := List.map_congr_left fun a ha => (h.kept (hl a ha)).2
      _ = l := List.map_id l

instance : Lawful (Array α) where
  kept {e e₀ l} h hl := by
    refine ⟨fun a ha => (h.kept (hl a ha)).1, ?_⟩
    calc image e l = l.map id := Array.map_congr_left fun a ha => (h.kept (hl a ha)).2
      _ = l := Array.map_id l

instance : Lawful (α × β) where
  kept {e e₀ p} h hp := by
    obtain ⟨hfirst, hfirst'⟩ := h.kept hp.1
    obtain ⟨hsecond, hsecond'⟩ := h.kept hp.2
    exact ⟨⟨hfirst, hsecond⟩, Prod.ext hfirst' hsecond'⟩

end

/-! ## 2. Values -/

instance : Lawful String where
  kept _ _ := ⟨trivial, rfl⟩

instance : Lawful ObjectId where
  kept h ha := h.object ha

instance : Lawful ScopeId where
  kept h ha := h.scope ha

instance : Lawful Symbol where
  kept {e e₀ s} h _ := by
    cases s with
    | made serial description => exact ⟨trivial, congrArg (Symbol.made · description) (h.serial serial)⟩
    | _ => exact ⟨trivial, rfl⟩

instance : Lawful Key where
  kept {e e₀ key} h _ := by
    cases key with
    | symbol s => exact ⟨trivial, congrArg Key.symbol (h.kept (a := s) trivial).2⟩
    | _ => exact ⟨trivial, rfl⟩

instance : Lawful Value where
  kept {e e₀ v} h hv := by
    cases v with
    | object id => exact ⟨(h.object hv).1, congrArg Value.object (h.object hv).2⟩
    | symbol s => exact ⟨trivial, congrArg Value.symbol (h.kept (a := s) trivial).2⟩
    | _ => exact ⟨trivial, rfl⟩

instance : Lawful Property where
  kept {e e₀ p} h hp := by
    obtain ⟨content, enumerable, configurable⟩ := p
    cases content with
    | data value writable =>
      obtain ⟨hvalue, hvalue'⟩ := h.kept (a := value) hp
      exact ⟨hvalue, congrArg (fun v => Property.mk (.data v writable) enumerable configurable) hvalue'⟩
    | accessor getter setter =>
      obtain ⟨hgetter, hgetter'⟩ := h.kept (a := getter) hp.1
      obtain ⟨hsetter, hsetter'⟩ := h.kept (a := setter) hp.2
      refine ⟨⟨hgetter, hsetter⟩, ?_⟩
      exact congrArg₂ (fun v w => Property.mk (.accessor v w) enumerable configurable) hgetter' hsetter'

/-! ## 3. Objects -/

instance : Lawful ClassField where
  kept {e e₀ field} h hfield := by
    have hfirm : Within e field := by
      change Code.Firm? e.Sets field.init
      rw [h.sets]
      exact hfield
    exact ⟨hfirm, congrArg (fun key => { field with key := key }) (h.kept (a := field.key) trivial).2⟩

instance : Lawful ClassFunction where
  kept {e e₀ data} h hdata := by
    obtain ⟨hconstructor, hconstructor'⟩ := h.kept hdata.1
    obtain ⟨hparent, hparent'⟩ := h.kept hdata.2.1
    obtain ⟨hfields, hfields'⟩ := h.kept hdata.2.2.1
    obtain ⟨hscope, hscope'⟩ := h.kept hdata.2.2.2
    refine ⟨⟨hconstructor, hparent, hfields, hscope⟩, ?_⟩
    rw [image_classFunction, hconstructor', hparent', hfields', hscope']

instance : Lawful Callable where
  kept {e e₀ c} h hc := by
    cases c with
    | closure template scope receiver =>
      obtain ⟨htemplate, hscope, hreceiver⟩ := hc
      obtain ⟨hscope, hscope'⟩ := h.kept hscope
      obtain ⟨hreceiver, hreceiver'⟩ := h.kept hreceiver
      refine ⟨⟨h.sets ▸ htemplate, hscope, hreceiver⟩, ?_⟩
      exact congrArg₂ (Callable.closure template) hscope' hreceiver'
    | classFunction data => exact ⟨(h.kept (a := data) hc).1, congrArg Callable.classFunction (h.kept (a := data) hc).2⟩
    | bound target receiver args name arity isConstructor =>
      obtain ⟨htarget, htarget'⟩ := h.kept hc.1
      obtain ⟨hreceiver, hreceiver'⟩ := h.kept hc.2.1
      obtain ⟨hargs, hargs'⟩ := h.kept hc.2.2
      refine ⟨⟨htarget, hreceiver, hargs⟩, ?_⟩
      change Callable.bound (image e target) (image e receiver) (image e args) name arity isConstructor = _
      rw [htarget', hreceiver', hargs']
    | builtin | evalText | makeFunction => exact ⟨trivial, rfl⟩

instance : Lawful Object where
  kept {e e₀ o} h ho := by
    obtain ⟨hproperties, hproperties'⟩ := h.kept ho.properties
    obtain ⟨hprototype, hprototype'⟩ := h.kept ho.prototype
    obtain ⟨hcallable, hcallable'⟩ := h.kept ho.callable
    obtain ⟨helements, helements'⟩ := h.kept ho.elements
    obtain ⟨hprimitive, hprimitive'⟩ := h.kept ho.primitive
    obtain ⟨hmap, hmap'⟩ := h.kept ho.mapEntries
    obtain ⟨hset, hset'⟩ := h.kept ho.setEntries
    refine ⟨⟨hproperties, hprototype, hcallable, helements, hprimitive, hmap, hset⟩, ?_⟩
    rw [Object.image_eq, hproperties', hprototype', hcallable', helements', hprimitive', hmap', hset']

/-! ## 4. Parts of states -/

instance : Lawful Registers where
  kept {e e₀ r} h hr := by
    obtain ⟨hscope, hreceiver, hresult, htarget, hjoining⟩ := hr
    obtain ⟨hscope, hscope'⟩ := h.kept hscope
    obtain ⟨hreceiver, hreceiver'⟩ := h.kept hreceiver
    obtain ⟨hresult, hresult'⟩ := h.kept hresult
    obtain ⟨htarget, htarget'⟩ := h.kept htarget
    obtain ⟨hjoining, hjoining'⟩ := h.kept hjoining
    refine ⟨⟨hscope, hreceiver, hresult, htarget, hjoining⟩, ?_⟩
    rw [Registers.image_eq, hscope', hreceiver', hresult', htarget', hjoining']

instance : Lawful Rules where
  kept {e e₀ r} h hr := by
    obtain ⟨hroot, hroot'⟩ := h.kept hr.1
    obtain ⟨hreceiver, hreceiver'⟩ := h.kept hr.2
    refine ⟨⟨hroot, hreceiver⟩, ?_⟩
    rw [Rules.image_eq, hroot', hreceiver']

end Carried

end GuestScript
