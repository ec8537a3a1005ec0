import GuestScript.Proofs.Mirror.Host

/-!
# Addresses

Which objects a value, an object, a request and so on mention. What is within reach along an embedding mentions open
objects only (`open_of_within`), and an object is within reach when all that it mentions is open and its code can be run
in its scope (`Object.within_of_open`).
-/

namespace GuestScript

/-! ## 1. What is mentioned -/

/-- The object that a value is. -/
def Value.addresses (v : Value) : List ObjectId :=
  v.object?.toList

/-- The objects that a function holds on to. -/
def Callable.addresses : Callable → List ObjectId
  | .closure _ _ receiver => receiver.toList.flatMap Value.addresses
  | .classFunction data => data.constructor.toList ++ data.parent.toList
  | .bound target receiver args _ _ _ => target :: (receiver.addresses ++ args.toList.flatMap Value.addresses)
  | .builtin _ | .evalText | .makeFunction => []

/-- The scope that a function was made in. -/
def Callable.scopes : Callable → List ScopeId
  | .closure _ scope _ => [scope]
  | .classFunction data => [data.scope]
  | .bound _ _ _ _ _ _ | .builtin _ | .evalText | .makeFunction => []

/-- The objects that an object mentions, in whatever place. -/
def Object.addresses (o : Object) : List ObjectId :=
  o.properties.toList.flatMap (fun entry => heldBy entry.2) ++ o.prototype.toList ++
    o.callable.toList.flatMap Callable.addresses ++
    o.elements.toList.flatMap (fun items => items.toList.flatMap Value.addresses) ++
    o.primitive.toList.flatMap Value.addresses ++
    o.mapEntries.toList.flatMap (fun entries => entries.toList.flatMap fun entry =>
      entry.toList.flatMap fun p => p.1.addresses ++ p.2.addresses) ++
    o.setEntries.toList.flatMap fun members => members.toList.flatMap fun v => v.toList.flatMap Value.addresses

/-- The objects in the registers. -/
def Registers.addresses (r : Registers) : List ObjectId :=
  r.receiver.addresses ++ r.result.addresses ++ r.newTarget.toList ++ r.joining

/-- The objects that a request hands on. -/
def Request.addresses : Request → List ObjectId
  | .call function receiver args => function.addresses ++ receiver.addresses ++ args.toList.flatMap Value.addresses
  | .construct function args => function.addresses ++ args.toList.flatMap Value.addresses
  | .initParent parent receiver args => parent :: (receiver.addresses ++ args.toList.flatMap Value.addresses)
  | .evalText code _ receiver => code.toList.flatMap Value.addresses ++ receiver.addresses

/-- The objects in the rules of an evaluation. -/
def Rules.addresses (r : Rules) : List ObjectId :=
  r.rootContext.toList ++ r.plainReceiver.addresses

/-- The objects that a host hands in. -/
def HostCall.addresses : HostCall → List ObjectId
  | .reset bindings options => bindings :: options.toRules.addresses
  | .evaluate _ | .run _ => []
  | .call function receiver args => function.addresses ++ receiver.addresses ++ args.toList.flatMap Value.addresses
  | .construct function args => function.addresses ++ args.toList.flatMap Value.addresses

/-- Whether a host runs nothing but what was compiled from a tree. -/
def HostCall.IsCompiled : HostCall → Prop
  | .run p => ∃ n source, Program.ofTree n source = .ok p
  | _ => True

/-- Whether the code of a function is firm, if it has any. -/
def Callable.Firm (Sets : BindingMode → Prop) : Callable → Prop
  | .closure template _ _ => template.Firm Sets
  | .classFunction data => ∀ field ∈ data.fields, Code.Firm? Sets field.init
  | .bound _ _ _ _ _ _ | .builtin _ | .evalText | .makeFunction => True

/-- Whether the code of a function is steady, if it has any. -/
abbrev Callable.Steady (c : Callable) : Prop :=
  c.Firm fun _ => True

/-! ## 2. What is within reach -/

variable {e : Embedding}

theorem Value.within_iff (v : Value) : Within e v ↔ ∀ id ∈ v.addresses, e.Open id := by
  cases v with
  | object id =>
    change e.Open id ↔ ∀ x ∈ [id], e.Open x
    exact List.forall_mem_singleton.symm
  | _ => exact ⟨fun _ => nofun, fun _ => trivial⟩

section

variable {α : Type} [Carried α] {f : α → List ObjectId}

/-- What holds of the entries holds of a list. -/
theorem within_list_iff (hf : ∀ a, Within e a ↔ ∀ id ∈ f a, e.Open id) (l : List α) :
    Within e l ↔ ∀ id ∈ l.flatMap f, e.Open id := by
  simp only [List.mem_flatMap]
  exact ⟨fun h id ⟨a, ha, hid⟩ => (hf a).mp (h a ha) id hid, fun h a ha => (hf a).mpr fun id hid => h id ⟨a, ha, hid⟩⟩

theorem within_array_iff (hf : ∀ a, Within e a ↔ ∀ id ∈ f a, e.Open id) (l : Array α) :
    Within e l ↔ ∀ id ∈ l.toList.flatMap f, e.Open id :=
  ⟨fun h => (within_list_iff hf _).mp (within_toList h), fun h a ha =>
    (within_list_iff hf _).mpr h a (Array.mem_toList_iff.mpr ha)⟩

theorem within_option_iff (hf : ∀ a, Within e a ↔ ∀ id ∈ f a, e.Open id) (o : Option α) :
    Within e o ↔ ∀ id ∈ o.toList.flatMap f, e.Open id := by
  cases o with
  | none => exact ⟨fun _ => nofun, fun _ => within_none⟩
  | some a => rw [within_some, hf a, Option.toList_some, List.flatMap_singleton]

end

theorem within_objectOption_iff (o : Option ObjectId) : Within e o ↔ ∀ id ∈ o.toList, e.Open id := by
  cases o with
  | none => exact ⟨fun _ => nofun, fun _ => within_none⟩
  | some id => exact within_some.trans List.forall_mem_singleton.symm

theorem Property.within_iff (p : Property) : Within e p ↔ ∀ id ∈ Object.heldBy p, e.Open id := by
  obtain ⟨content, enumerable, configurable⟩ := p
  cases content with
  | data value writable => exact value.within_iff
  | accessor getter setter =>
    change Within e getter ∧ Within e setter ↔ ∀ id ∈ getter.addresses ++ setter.addresses, e.Open id
    rw [getter.within_iff, setter.within_iff, List.forall_mem_append]

theorem within_values_iff (l : Array Value) : Within e l ↔ ∀ id ∈ l.toList.flatMap Value.addresses, e.Open id :=
  within_array_iff Value.within_iff l

theorem within_pair_iff (p : Value × Value) : Within e p ↔ ∀ id ∈ p.1.addresses ++ p.2.addresses, e.Open id := by
  change Within e p.1 ∧ Within e p.2 ↔ _
  rw [p.1.within_iff, p.2.within_iff, List.forall_mem_append]

theorem Callable.open_of_within {c : Callable} (h : Within e c) : ∀ id ∈ c.addresses, e.Open id := by
  cases c with
  | closure template scope receiver => exact (within_option_iff Value.within_iff receiver).mp h.2.2
  | classFunction data =>
    exact List.forall_mem_append.mpr ⟨(within_objectOption_iff _).mp h.1, (within_objectOption_iff _).mp h.2.1⟩
  | bound target receiver args name arity isConstructor =>
    refine List.forall_mem_cons.mpr ⟨h.1, List.forall_mem_append.mpr ⟨receiver.within_iff.mp h.2.1, ?_⟩⟩
    exact (within_values_iff args).mp h.2.2
  | builtin | evalText | makeFunction => nofun

theorem Callable.firm_of_within {c : Callable} (h : Within e c) : c.Firm e.Sets := by
  cases c with
  | closure template scope receiver => exact h.1
  | classFunction data => exact h.2.2.1
  | bound | builtin | evalText | makeFunction => trivial

theorem Callable.scoped_of_within {c : Callable} (h : Within e c) : ∀ id ∈ c.scopes, e.Scoped id := by
  cases c with
  | closure template scope receiver => exact List.forall_mem_singleton.mpr h.2.1
  | classFunction data => exact List.forall_mem_singleton.mpr h.2.2.2
  | bound | builtin | evalText | makeFunction => nofun

theorem Callable.within_of_open {c : Callable} (hscoped : ∀ id ∈ c.scopes, e.Scoped id) (hfirm : c.Firm e.Sets)
    (h : ∀ id ∈ c.addresses, e.Open id) : Within e c := by
  cases c with
  | closure template scope receiver =>
    exact ⟨hfirm, hscoped scope List.mem_cons_self, (within_option_iff Value.within_iff receiver).mpr h⟩
  | classFunction data =>
    obtain ⟨hconstructor, hparent⟩ := List.forall_mem_append.mp h
    exact ⟨(within_objectOption_iff _).mpr hconstructor, (within_objectOption_iff _).mpr hparent, hfirm,
      hscoped data.scope List.mem_cons_self⟩
  | bound target receiver args name arity isConstructor =>
    obtain ⟨htarget, hrest⟩ := List.forall_mem_cons.mp h
    obtain ⟨hreceiver, hargs⟩ := List.forall_mem_append.mp hrest
    exact ⟨htarget, receiver.within_iff.mpr hreceiver, (within_values_iff args).mpr hargs⟩
  | builtin | evalText | makeFunction => trivial

namespace Object

variable {o : Object}

theorem within_properties_iff (o : Object) :
    Within e o.properties ↔ ∀ id ∈ o.properties.toList.flatMap (fun entry => heldBy entry.2), e.Open id := by
  refine within_array_iff (fun entry => ?_) _
  change Within e entry.1 ∧ Within e entry.2 ↔ _
  rw [entry.2.within_iff]
  exact and_iff_right trivial

theorem within_mapEntries_iff (o : Object) :
    Within e o.mapEntries ↔ ∀ id ∈ o.mapEntries.toList.flatMap (fun entries => entries.toList.flatMap fun entry =>
      entry.toList.flatMap fun p => p.1.addresses ++ p.2.addresses), e.Open id :=
  within_option_iff (within_array_iff (within_option_iff within_pair_iff)) _

theorem within_setEntries_iff (o : Object) :
    Within e o.setEntries ↔ ∀ id ∈ o.setEntries.toList.flatMap (fun members => members.toList.flatMap fun v =>
      v.toList.flatMap Value.addresses), e.Open id :=
  within_option_iff (within_array_iff (within_option_iff Value.within_iff)) _

/-- An object within reach mentions open objects only. -/
theorem open_of_within (h : Within e o) : ∀ id ∈ o.addresses, e.Open id := by
  unfold addresses
  simp only [List.forall_mem_append]
  refine ⟨⟨⟨⟨⟨⟨?_, ?_⟩, ?_⟩, ?_⟩, ?_⟩, ?_⟩, ?_⟩
  · exact o.within_properties_iff.mp h.properties
  · exact (within_objectOption_iff _).mp h.prototype
  · intro id hid
    obtain ⟨c, hc, hid⟩ := List.mem_flatMap.mp hid
    exact Callable.open_of_within (h.callable c (Option.mem_toList.mp hc)) id hid
  · exact (within_option_iff within_values_iff _).mp h.elements
  · exact (within_option_iff Value.within_iff _).mp h.primitive
  · exact o.within_mapEntries_iff.mp h.mapEntries
  · exact o.within_setEntries_iff.mp h.setEntries

/-- An object that mentions open ones only is within reach, if its code is firm and can be run in its scope. -/
theorem within_of_open (hscoped : ∀ c ∈ o.callable, ∀ id ∈ c.scopes, e.Scoped id) (hfirm : ∀ c ∈ o.callable, c.Firm e.Sets)
    (h : ∀ id ∈ o.addresses, e.Open id) : Within e o := by
  unfold addresses at h
  simp only [List.forall_mem_append] at h
  obtain ⟨⟨⟨⟨⟨⟨hproperties, hprototype⟩, hcallable⟩, helements⟩, hprimitive⟩, hmap⟩, hset⟩ := h
  exact {
    properties := o.within_properties_iff.mpr hproperties
    prototype := (within_objectOption_iff _).mpr hprototype
    callable := fun c hc => Callable.within_of_open (hscoped c hc) (hfirm c hc) fun id hid =>
      hcallable id (List.mem_flatMap.mpr ⟨c, Option.mem_toList.mpr hc, hid⟩)
    elements := (within_option_iff within_values_iff _).mpr helements
    primitive := (within_option_iff Value.within_iff _).mpr hprimitive
    mapEntries := o.within_mapEntries_iff.mpr hmap
    setEntries := o.within_setEntries_iff.mpr hset }

end Object

theorem Registers.open_of_within {r : Registers} (h : Within e r) : ∀ id ∈ r.addresses, e.Open id := by
  obtain ⟨-, hreceiver, hresult, htarget, hjoining⟩ := h
  unfold addresses
  simp only [List.forall_mem_append]
  exact ⟨⟨⟨r.receiver.within_iff.mp hreceiver, r.result.within_iff.mp hresult⟩,
    (within_objectOption_iff _).mp htarget⟩, hjoining⟩

theorem Registers.within_of_open {r : Registers} (hscope : e.Scoped r.scope) (h : ∀ id ∈ r.addresses, e.Open id) :
    Within e r := by
  unfold addresses at h
  simp only [List.forall_mem_append] at h
  obtain ⟨⟨⟨hreceiver, hresult⟩, htarget⟩, hjoining⟩ := h
  exact ⟨hscope, r.receiver.within_iff.mpr hreceiver, r.result.within_iff.mpr hresult,
    (within_objectOption_iff _).mpr htarget, hjoining⟩

theorem Request.open_of_within {r : Request} (h : Within e r) : ∀ id ∈ r.addresses, e.Open id := by
  cases r with
  | call function receiver args =>
    refine List.forall_mem_append.mpr ⟨List.forall_mem_append.mpr ⟨?_, ?_⟩, ?_⟩
    · exact function.within_iff.mp h.1
    · exact receiver.within_iff.mp h.2.1
    · exact (within_values_iff args).mp h.2.2
  | construct function args =>
    exact List.forall_mem_append.mpr ⟨function.within_iff.mp h.1, (within_values_iff args).mp h.2⟩
  | initParent parent receiver args =>
    refine List.forall_mem_cons.mpr ⟨h.1, List.forall_mem_append.mpr ⟨receiver.within_iff.mp h.2.1, ?_⟩⟩
    exact (within_values_iff args).mp h.2.2
  | evalText code scope receiver =>
    refine List.forall_mem_append.mpr ⟨?_, receiver.within_iff.mp h.2.2⟩
    exact (within_option_iff Value.within_iff code).mp h.1

theorem Rules.within_of_open {r : Rules} (h : ∀ id ∈ r.addresses, e.Open id) : Within e r := by
  obtain ⟨hroot, hreceiver⟩ := List.forall_mem_append.mp h
  exact ⟨(within_objectOption_iff _).mpr hroot, r.plainReceiver.within_iff.mpr hreceiver⟩

theorem Rules.open_of_within {r : Rules} (h : Within e r) : ∀ id ∈ r.addresses, e.Open id :=
  List.forall_mem_append.mpr ⟨(within_objectOption_iff _).mp h.1, r.plainReceiver.within_iff.mp h.2⟩

/-- What a host hands in is within reach when all that it mentions is open, if its programs are compiled. -/
theorem HostCall.within_of_open {c : HostCall} (hcompiled : c.IsCompiled) (h : ∀ id ∈ c.addresses, e.Open id) :
    Within e c := by
  cases c with
  | reset bindings options =>
    obtain ⟨hbindings, hrules⟩ := List.forall_mem_cons.mp h
    exact ⟨hbindings, Rules.within_of_open hrules⟩
  | evaluate source => trivial
  | run p =>
    obtain ⟨n, source, hp⟩ := hcompiled
    exact Program.firm_ofTree e.sets hp
  | call function receiver args =>
    obtain ⟨hfirst, hargs⟩ := List.forall_mem_append.mp h
    obtain ⟨hfunction, hreceiver⟩ := List.forall_mem_append.mp hfirst
    exact ⟨function.within_iff.mpr hfunction, receiver.within_iff.mpr hreceiver, (within_values_iff args).mpr hargs⟩
  | construct function args =>
    obtain ⟨hfunction, hargs⟩ := List.forall_mem_append.mp h
    exact ⟨function.within_iff.mpr hfunction, (within_values_iff args).mpr hargs⟩

end GuestScript
