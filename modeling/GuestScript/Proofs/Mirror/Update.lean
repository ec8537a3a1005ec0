import GuestScript.Proofs.Mirror.Action
import GuestScript.Proofs.Mirror.State

/-!
# Changes of mirrors

Changes that follow each other keep states mirrors of each other (`Update.Follows.keeps`). The two that take a new
address need that the embedding has foreseen it: the next address is open for an object that a script gets, and closed
for one that holds the names of a frame, and the next scope can be run in (`Update.Fits`).
-/

namespace GuestScript

variable {α : Type} {s : State} {id : ObjectId} {e : Embedding}

/-! ## 1. States after a change -/

namespace State

variable {s : State}

/-- An object is put in the place of the old one. -/
def setObject (s : State) (id : ObjectId) (o : Object) : State :=
  { s with heap := s.heap.setIfInBounds id.index o }

theorem changeObject_eq (s : State) (id : ObjectId) (f : Object → Object × α) :
    s.changeObject id f = ((f (s.objectAt id)).2, s.setObject id (f (s.objectAt id)).1) := by
  simp only [changeObject, setObject, objectAt, Array.setIfInBounds_setIfInBounds]

theorem objectAt_setObject (s : State) (id id' : ObjectId) (o : Object) :
    (s.setObject id o).objectAt id' = if id' = id ∧ id.index < s.heap.size then o else s.objectAt id' := by
  by_cases hsame : id' = id
  · rw [hsame]
    by_cases hlt : id.index < s.heap.size
    · simp [setObject, objectAt, hlt]
    · simp [setObject, objectAt, hlt]
  · have hindex : id.index ≠ id'.index := fun h => hsame (by cases id; cases id'; exact congrArg ObjectId.mk h.symm)
    simp [setObject, objectAt, Array.getElem?_setIfInBounds_ne hindex, hsame]

/-- An object that has a place on the heap takes its change. -/
theorem objectAt_changeObject (hid : id.index < s.heap.size) (f : Object → Object × α) :
    (s.changeObject id f).2.objectAt id = (f (s.objectAt id)).1 := by
  rw [changeObject_eq, objectAt_setObject, if_pos ⟨rfl, hid⟩]

theorem objectAt_changeObject_of_ne (s : State) {id' : ObjectId} (hne : id ≠ id') (f : Object → Object × α) :
    (s.changeObject id' f).2.objectAt id = s.objectAt id := by
  rw [changeObject_eq, objectAt_setObject, if_neg fun h => hne h.1]

theorem objectAt_push (s : State) (id : ObjectId) (o : Object) :
    State.objectAt { s with heap := s.heap.push o } id = if id.index = s.heap.size then o else s.objectAt id := by
  simp only [objectAt, Array.getD_eq_getD_getElem?, Array.getElem?_push]
  split <;> rfl

theorem scopeAt_pushScope (s : State) (scope : Scope) (id : ScopeId) :
    (s.pushScope scope).2.scopeAt id =
      if id.index = s.scopes.size then
        { scope with parent := scope.parent.filter fun parent => parent.index < s.scopes.size }
      else s.scopeAt id := by
  simp only [pushScope, scopeAt, Array.getD_eq_getD_getElem?, Array.getElem?_push]
  split <;> rfl

end State

/-! ## 2. Changes of single objects and scopes -/

namespace Embedding.Elides

variable {e : Embedding} {s s' : State} {id : ScopeId}

/-- A scope stays clear as long as it stays as it is, and its object, too. -/
theorem of_eq (h : e.Elides s id) (hscope : s'.scopeAt id = s.scopeAt id) (hscopes : s.scopes.size ≤ s'.scopes.size)
    (hheap : s.heap.size ≤ s'.heap.size)
    (hobject : s'.objectAt (s.scopeAt id).data = s.objectAt (s.scopeAt id).data) : e.Elides s' id where
  kind := by rw [hscope, h.kind]
  lexical := by rw [hscope, h.lexical]
  parent := by rw [hscope]; exact h.parent
  index_lt := Nat.lt_of_lt_of_le h.index_lt hscopes
  data_lt := by rw [hscope]; exact Nat.lt_of_lt_of_le h.data_lt hheap
  data := by rw [hscope]; exact h.data
  empty := by rw [hscope, hobject]; exact h.empty

theorem same (h : e.Elides s id) (hscopes : s'.scopes = s.scopes) (hheap : s'.heap = s.heap) : e.Elides s' id :=
  h.of_eq (by simp only [State.scopeAt, hscopes]) (Nat.le_of_eq (congrArg Array.size hscopes).symm)
    (Nat.le_of_eq (congrArg Array.size hheap).symm) (by simp only [State.objectAt, hheap])

end Embedding.Elides

namespace Embedding.Mirrors

variable {e : Embedding} {s s' : State}

section

variable (h : e.Mirrors s s')

include h

/-- A scope that is not there yet is not clear. -/
theorem solid_next (hscoped : e.Scoped ⟨s.scopes.size⟩) : e.Solid ⟨s.scopes.size⟩ :=
  ⟨hscoped, fun hclear => absurd (h.clear hclear).index_lt (Nat.lt_irrefl _)⟩

/-- An object may be replaced by one that is within reach on both sides. -/
theorem setObject (hid : e.Holds id) {o : Object} (ho : Within e o) (hnames : e.Closed id → o.HoldsNames) :
    e.Mirrors (s.setObject id o) (s'.setObject (e.object id) (image e o)) :=
  { h with
    within_object := by
      intro id' hid'
      rw [State.objectAt_setObject]
      split
      · exact ho
      · exact h.within_object hid'
    object := by
      intro id' hid'
      have hsame : e.object id' = e.object id ↔ id' = id := ⟨e.object_injective hid' hid, congrArg _⟩
      simp only [State.objectAt_setObject, hsame, h.object_lt hid]
      split
      · rfl
      · exact h.object hid'
    names := by
      intro id' hid'
      rw [State.objectAt_setObject]
      split
      · rename_i hsame
        exact hnames (hsame.1 ▸ hid')
      · exact h.names hid'
    object_lt := by
      intro id' hid'
      simp only [State.setObject, Array.size_setIfInBounds]
      exact h.object_lt hid'
    object_next := by
      intro k
      simp only [State.setObject, Array.size_setIfInBounds]
      exact h.object_next k
    clear := by
      intro scope hclear
      have helides := h.clear hclear
      have hother : (s.scopeAt scope).data ≠ id := fun hsame => helides.data (hsame ▸ hid)
      refine helides.of_eq rfl (Nat.le_refl _) (Nat.le_of_eq Array.size_setIfInBounds.symm) ?_
      exact (State.objectAt_setObject s id _ o).trans (if_neg fun hsame => hother hsame.1) }

/-- Addresses that are not taken yet are moved by the difference of the sizes. -/
theorem index_object (hsize : s.heap.size ≤ id.index) :
    (e.object id).index = s'.heap.size + (id.index - s.heap.size) := by
  have hnext := h.object_next (id.index - s.heap.size)
  rw [Nat.add_sub_cancel' hsize] at hnext
  exact congrArg ObjectId.index hnext

theorem index_scope {id : ScopeId} (hsize : s.scopes.size ≤ id.index) :
    (e.scope id).index = s'.scopes.size + (id.index - s.scopes.size) := by
  have hnext := h.scope_next (id.index - s.scopes.size)
  rw [Nat.add_sub_cancel' hsize] at hnext
  exact congrArg ScopeId.index hnext

/-- The next address corresponds to the next address. -/
theorem object_eq_size (hid : e.Holds id) : (e.object id).index = s'.heap.size ↔ id.index = s.heap.size := by
  have hlt := h.object_lt hid
  rcases Nat.lt_or_ge id.index s.heap.size with hsmall | hlarge
  · have := hlt.mpr hsmall
    omega
  · have := h.index_object hlarge
    omega

theorem scope_eq_size {id : ScopeId} (hid : e.Scoped id) :
    (e.scope id).index = s'.scopes.size ↔ id.index = s.scopes.size := by
  have hlt := h.scope_lt hid
  rcases Nat.lt_or_ge id.index s.scopes.size with hsmall | hlarge
  · have := hlt.mpr hsmall
    omega
  · have := h.index_scope hlarge
    omega

/-- A new object takes the next address on both sides. -/
theorem push {o : Object} (ho : Within e o) (hnames : e.Closed ⟨s.heap.size⟩ → o.HoldsNames) :
    e.Mirrors { s with heap := s.heap.push o } { s' with heap := s'.heap.push (image e o) } :=
  { h with
    within_object := by
      intro id hid
      rw [State.objectAt_push]
      split
      · exact ho
      · exact h.within_object hid
    object := by
      intro id hid
      simp only [State.objectAt_push, h.object_eq_size hid]
      split
      · rfl
      · exact h.object hid
    names := by
      intro id hid
      rw [State.objectAt_push]
      split
      · rename_i hsize
        exact hnames (hsize ▸ hid)
      · exact h.names hid
    object_lt := by
      intro id hid
      have hlt := h.object_lt hid
      have heq := h.object_eq_size hid
      simp only [Array.size_push]
      omega
    object_next := by
      intro k
      have hnext := h.object_next (k + 1)
      simp only [Array.size_push]
      rwa [Nat.add_right_comm, Nat.add_assoc, Nat.add_right_comm s'.heap.size, Nat.add_assoc s'.heap.size]
    clear := by
      intro scope hclear
      have helides := h.clear hclear
      refine helides.of_eq rfl (Nat.le_refl _) (by simp) ?_
      exact (State.objectAt_push s _ o).trans (if_neg (Nat.ne_of_lt helides.data_lt)) }

/-- Only an older scope can be a parent, on both sides. -/
theorem filter_parent {parent : Option ScopeId} (hparent : Within e parent) :
    (image e parent).filter (fun parent => parent.index < s'.scopes.size) =
      image e (parent.filter fun parent => parent.index < s.scopes.size) := by
  cases parent with
  | none => rfl
  | some parent =>
    have hlt := h.scope_lt (within_some.mp hparent)
    simp only [image_some, Option.filter_some, image_scopeId, hlt]
    split <;> rfl

omit h in
theorem within_filter_parent {parent : Option ScopeId} (hparent : Within e parent) (size : Nat) :
    Within e (parent.filter fun parent => parent.index < size) :=
  fun id hid => hparent id (Option.mem_filter_iff.mp hid).1

omit h in
theorem ordered_pushScope (hs : s.Ordered) (scope : Scope) : (s.pushScope scope).2.Ordered := by
  intro id parent hparent
  rw [State.scopeAt_pushScope] at hparent
  split at hparent
  · rename_i hsize
    have hlt := (Option.mem_filter_iff.mp hparent).2
    rw [hsize]
    exact of_decide_eq_true hlt
  · exact hs id parent hparent

/-- A new scope takes the next address on both sides. -/
theorem pushScope {scope : Scope} (hscope : Within e scope) :
    e.Mirrors (s.pushScope scope).2 (s'.pushScope (image e scope)).2 :=
  { h with
    within_scope := by
      intro id hid
      rw [State.scopeAt_pushScope]
      split
      · exact ⟨hscope.closed, hscope.opened, hscope.constant, within_filter_parent hscope.parent _⟩
      · exact h.within_scope hid
    clear := by
      intro id hclear
      have helides := h.clear hclear
      refine helides.of_eq ?_ (by simp [State.pushScope]) (Nat.le_refl _) rfl
      exact (State.scopeAt_pushScope s scope id).trans (if_neg (Nat.ne_of_lt helides.index_lt))
    scope := by
      intro id hid
      simp only [State.scopeAt_pushScope, h.scope_eq_size hid.1]
      split
      · rw [Scope.parent_image, h.filter_parent hscope.parent]
        rfl
      · exact h.scope hid
    scope_lt := by
      intro id hid
      have hlt := h.scope_lt hid
      have heq := h.scope_eq_size hid
      simp only [State.pushScope, Array.size_push]
      omega
    scope_next := by
      intro k
      have hnext := h.scope_next (k + 1)
      simp only [State.pushScope, Array.size_push]
      rwa [Nat.add_right_comm, Nat.add_assoc, Nat.add_right_comm s'.scopes.size, Nat.add_assoc s'.scopes.size]
    ordered := ordered_pushScope h.ordered scope
    ordered' := ordered_pushScope h.ordered' (image e scope) }

/-- Other registers may be put on both sides. -/
theorem withRegisters {r : Registers} (hr : Within e r) :
    e.Mirrors { s with toRegisters := r } { s' with toRegisters := image e r } :=
  { h with within_registers := hr, registers := rfl, clear := fun hclear => (h.clear hclear).same rfl rfl }

end

end Embedding.Mirrors

namespace Scope

/-- That a name is initialized says nothing about the other records, and keeps the sort of its own. -/
theorem kind_lookup_setRecord {name : String} {r : LexicalRecord} :
    ∀ {records : List (String × LexicalRecord)}, records.lookup name = some r →
      ∀ other, ((setRecord name { r with initialized := true } records).lookup other).map LexicalRecord.kind =
        (records.lookup other).map LexicalRecord.kind
  | [], hr, _ => nomatch hr
  | (n, r') :: rest, hr, other => by
    by_cases hn : n = name
    · subst hn
      obtain rfl : r' = r := by simpa [List.lookup_cons] using hr
      simp only [setRecord, beq_self_eq_true, if_true, List.lookup_cons]
      split <;> rfl
    · have hne : (n == name) = false := beq_eq_false_iff_ne.mpr hn
      have hne' : (name == n) = false := beq_eq_false_iff_ne.mpr (Ne.symm hn)
      rw [List.lookup_cons, hne'] at hr
      rw [setRecord, hne, if_neg Bool.false_ne_true, List.lookup_cons, List.lookup_cons]
      cases other == n with
      | true => rfl
      | false => exact kind_lookup_setRecord hr other

theorem kind_record?_markInitialized (s : Scope) (name other : String) :
    ((s.markInitialized name).record? other).map LexicalRecord.kind = (s.record? other).map LexicalRecord.kind := by
  unfold markInitialized
  cases hr : s.record? name with
  | none => rfl
  | some r => exact kind_lookup_setRecord hr other

theorem data_markInitialized (s : Scope) (name : String) : (s.markInitialized name).data = s.data := by
  unfold markInitialized
  split <;> rfl

theorem kind_markInitialized (s : Scope) (name : String) : (s.markInitialized name).kind = s.kind := by
  unfold markInitialized
  split <;> rfl

theorem parent_markInitialized (s : Scope) (name : String) : (s.markInitialized name).parent = s.parent := by
  unfold markInitialized
  split <;> rfl

theorem within_markInitialized {s : Scope} (hs : Within e s) (name : String) : Within e (s.markInitialized name) := by
  refine ⟨?_, ?_, ?_, ?_⟩
  · rw [data_markInitialized, kind_markInitialized]
    exact hs.closed
  · rw [data_markInitialized, kind_markInitialized]
    exact hs.opened
  · intro howns other hother
    rw [kind_markInitialized] at howns
    rw [data_markInitialized] at hother
    obtain ⟨r, hr, hconstant⟩ := hs.constant howns other hother
    have hsame := s.kind_record?_markInitialized name other
    rw [hr, Option.map_some] at hsame
    obtain ⟨r', hr', hkinds⟩ := Option.map_eq_some_iff.mp hsame
    exact ⟨r', hr', hkinds.trans hconstant⟩
  · rw [parent_markInitialized]
    exact hs.parent

theorem markInitialized_image (s : Scope) (name : String) :
    (image e s).markInitialized name = image e (s.markInitialized name) := by
  unfold markInitialized
  rw [record?_image]
  cases s.record? name <;> rfl

end Scope

theorem State.scopeAt_modify (s : State) (id id' : ScopeId) (f : Scope → Scope) :
    State.scopeAt { s with scopes := s.scopes.modify id.index f } id' =
      if id' = id ∧ id.index < s.scopes.size then f (s.scopeAt id) else s.scopeAt id' := by
  by_cases hsame : id' = id
  · rw [hsame]
    by_cases hlt : id.index < s.scopes.size
    · simp [scopeAt, hlt, Array.getElem_modify_self]
    · simp [scopeAt, hlt]
  · have hindex : id.index ≠ id'.index := fun h => hsame (by cases id; cases id'; exact congrArg ScopeId.mk h.symm)
    simp [scopeAt, Array.getElem?_modify, hindex, hsame]

theorem State.ordered_unlock (hs : s.Ordered) (id : ScopeId) (name : String) :
    State.Ordered { s with scopes := s.scopes.modify id.index fun scope => scope.markInitialized name } := by
  intro id' parent hparent
  rw [scopeAt_modify] at hparent
  split at hparent
  · rename_i hsame
    rw [Scope.parent_markInitialized] at hparent
    rw [hsame.1]
    exact hs id parent hparent
  · exact hs id' parent hparent

/-- A lexical name may be marked on both sides. -/
theorem Embedding.Mirrors.unlock {s' : State} (h : e.Mirrors s s') {id : ScopeId} (hid : e.Solid id) (name : String) :
    e.Mirrors { s with scopes := s.scopes.modify id.index fun scope => scope.markInitialized name }
      { s' with scopes := s'.scopes.modify (e.scope id).index fun scope => scope.markInitialized name } :=
  { h with
    within_scope := by
      intro id' hid'
      rw [State.scopeAt_modify]
      split
      · exact Scope.within_markInitialized (h.within_scope hid) name
      · exact h.within_scope hid'
    scope := by
      intro id' hid'
      have hsame : e.scope id' = e.scope id ↔ id' = id := ⟨e.scope_injective hid' hid, congrArg _⟩
      simp only [State.scopeAt_modify, hsame, h.scope_lt hid.1]
      split
      · rw [h.scope hid]
        exact Scope.markInitialized_image _ name
      · exact h.scope hid'
    clear := by
      intro id' hclear
      have helides := h.clear hclear
      have hother : id' ≠ id := fun hsame => hid.2 (hsame ▸ hclear)
      refine helides.of_eq ?_ (Nat.le_of_eq Array.size_modify.symm) (Nat.le_refl _) rfl
      exact (State.scopeAt_modify s id id' _).trans (if_neg fun hsame => hother hsame.1)
    scope_lt := by
      intro id' hid'
      simp only [Array.size_modify]
      exact h.scope_lt hid'
    scope_next := by
      intro k
      simp only [Array.size_modify]
      exact h.scope_next k
    ordered := State.ordered_unlock h.ordered id name
    ordered' := State.ordered_unlock h.ordered' (e.scope id) name }

/-! ## 3. All changes -/

/-- Whether an embedding has foreseen what a change does with the next address. -/
def Update.Fits (e : Embedding) (s : State) {α : Type} : Update α → Prop
  | .allocate _ => e.Open ⟨s.heap.size⟩
  | .newScope _ => e.Scoped ⟨s.scopes.size⟩
  | .newFrame _ _ lexical _ =>
    e.Closed ⟨s.heap.size⟩ ∧ e.Scoped ⟨s.scopes.size⟩ ∧
      ∀ name, e.Constant ⟨s.heap.size⟩ name → ∃ r, lexical.lookup name = some r ∧ r.kind = .constant
  | _ => True

theorem Object.within_ofEntries {held : Array (Key × Property)} (h : Within e held) :
    Within e ({ properties := held } : Object) :=
  { Object.within_default with properties := h }

theorem Object.image_ofEntries (held : Array (Key × Property)) :
    image e ({ properties := held } : Object) = { properties := image e held } :=
  congrArg (fun o : Object => { o with properties := image e held }) (Object.image_default (e := e))

open Object in
/-- **Changes that follow each other keep mirrors**, and their results correspond. -/
theorem Update.Follows.keeps {P : α → Prop} {g : α → α} {u u' : Update α} (hu : u.Follows e P g u') {s' : State}
    (h : e.Mirrors s s') (hfits : u.Fits e s) :
    P (u.apply s).1 ∧ (u'.apply s').1 = g (u.apply s).1 ∧ e.Mirrors (u.apply s).2 (u'.apply s').2 := by
  cases hu with
  | allocate ho =>
    have hnext := h.object_next 0
    exact ⟨hfits, hnext.symm, h.push ho fun hclosed => absurd hclosed (e.apart hfits)⟩
  | link hid hprototype =>
    rename_i id prototype
    have ho : Within e { s.objectAt id with prototype := prototype } :=
      { h.within_object (.inl hid) with prototype := hprototype }
    simp only [Update.apply.eq_def, h.closesCircle hid hprototype, State.changeObject_eq, h.object (.inl hid)]
    split
    · exact ⟨trivial, rfl, h.setObject (.inl hid) (h.within_object (.inl hid)) fun hclosed => absurd hclosed (e.apart hid)⟩
    · exact ⟨trivial, rfl, h.setObject (.inl hid) ho fun hclosed => absurd hclosed (e.apart hid)⟩
  | object hid hw hf =>
    rename_i id f f'
    obtain ⟨ho, ha, himage⟩ := hf (s.objectAt id) (h.within_object (.inl hid))
    simp only [Update.apply.eq_def, State.changeObject_eq, h.object (.inl hid), himage]
    exact ⟨ha, trivial, h.setObject (.inl hid) ho fun hclosed => absurd hclosed (e.apart hid)⟩
  | closedObject hid hw hf hnames =>
    rename_i id f f'
    obtain ⟨ho, ha, himage⟩ := hf (s.objectAt id) (h.within_object (.inr hid))
    simp only [Update.apply.eq_def, State.changeObject_eq, h.object (.inr hid), himage]
    exact ⟨ha, trivial, h.setObject (.inr hid) ho fun _ => (hnames _ (h.names hid)).1⟩
  | names hscope hf hdeclares =>
    rename_i scope f f'
    have hdata := h.holds_data hscope
    obtain ⟨ho, himage⟩ := hf _ (h.within_object hdata)
    simp only [Update.apply.eq_def, State.changeObject_eq, h.scope hscope, Scope.data_image, h.object hdata, himage]
    exact ⟨trivial, trivial, h.setObject hdata ho fun hclosed => (h.names hclosed).declares hdeclares⟩
  | newScope hkind hs =>
    have hnext := h.scope_next 0
    exact ⟨h.solid_next hfits, hnext.symm, h.pushScope hs⟩
  | newFrame hkind hparent hheld hnames =>
    rename_i kind parent lexical held
    obtain ⟨hclosed, hscoped, hconstant⟩ := hfits
    have hobject : e.object ⟨s.heap.size⟩ = ⟨s'.heap.size⟩ := h.object_next 0
    have hscope : e.scope ⟨s.scopes.size⟩ = ⟨s'.scopes.size⟩ := h.scope_next 0
    have hpushed := h.push (within_ofEntries hheld) fun _ => .ofEntries hnames
    rw [image_ofEntries] at hpushed
    have hframe : Within e ({ data := ⟨s.heap.size⟩, parent := parent, kind := kind, lexical := lexical } : Scope) :=
      ⟨fun _ => hclosed, fun hkind' => absurd (hkind.symm.trans hkind') (by decide), fun _ => hconstant, hparent⟩
    have hkept := hpushed.pushScope hframe
    have himage : image e ({ data := ⟨s.heap.size⟩, parent := parent, kind := kind, lexical := lexical } : Scope) =
        { data := ⟨s'.heap.size⟩, parent := image e parent, kind := kind, lexical := lexical } := by
      rw [← hobject]
      rfl
    rw [himage] at hkept
    exact ⟨h.solid_next hscoped, hscope.symm, hkept⟩
  | unlock hscope name => exact ⟨trivial, rfl, h.unlock hscope name⟩
  | newSymbol description =>
    have hserial : e.serial s.nextSymbol = s'.nextSymbol := h.serial_next 0
    refine ⟨trivial, congrArg (Symbol.made · description) hserial.symm,
      { h with serial_next := fun k => ?_, clear := fun hclear => (h.clear hclear).same rfl rfl }⟩
    have hnext := h.serial_next (k + 1)
    change e.serial (s.nextSymbol + 1 + k) = s'.nextSymbol + 1 + k
    rwa [Nat.add_right_comm, Nat.add_assoc, Nat.add_right_comm s'.nextSymbol, Nat.add_assoc s'.nextSymbol]
  | global name hv =>
    rename_i v
    have hentry : Within e (name, v) := ⟨trivial, hv⟩
    have hadded : Within e [(name, v)] := within_cons.mpr ⟨hentry, within_nil⟩
    refine ⟨trivial, rfl, { h with
      within_globals := within_append h.within_globals hadded, globals := ?_, label := h.label,
      clear := fun hclear => (h.clear hclear).same rfl rfl }⟩
    change s'.realm.globals ++ _ = image e (s.realm.globals ++ _)
    rw [h.globals, image_list, image_list, List.map_append]
    rfl
  | position p => exact ⟨trivial, rfl, { h with lastPosition := rfl, clear := fun hclear => (h.clear hclear).same rfl rfl }⟩
  | result hv =>
    rename_i v
    refine ⟨trivial, rfl, ?_⟩
    have hcalls : s'.calls.isEmpty = s.calls.isEmpty := congrArg List.isEmpty h.calls
    simp only [Update.apply.eq_def]
    by_cases hempty : s.calls.isEmpty = true
    · rw [if_pos hempty, if_pos (hcalls.trans hempty)]
      have hr : Within e { s.toRegisters with result := v } :=
        ⟨h.within_registers.1, h.within_registers.2.1, hv, h.within_registers.2.2.2⟩
      have hkept := h.withRegisters hr
      have himage : image e { s.toRegisters with result := v } = { s'.toRegisters with result := image e v } := by
        rw [h.registers]
        rfl
      rw [himage] at hkept
      exact hkept
    · rw [if_neg hempty, if_neg fun hempty' => hempty (hcalls.symm.trans hempty')]
      exact h

end GuestScript
