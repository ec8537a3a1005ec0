import GuestScript.Proofs.Mirror.Extension
import GuestScript.Proofs.Reach.Hidden
import GuestScript.Proofs.Attempt

/-!
# Well-formed states

A state is *well-formed* if all that it mentions is there, and if the objects that hold the names of its scopes are
mentioned nowhere else (`State.WellFormed`). A state like that mirrors itself, even with objects and scopes on its end
that an embedding drops (`mirrors_grown`).

The first machine is well-formed (`Machine.initial_wellFormed`), and a host that hands in nothing but what is there keeps
it so: not only between host calls, but at every event on the way (`HostCall.wellFormed_logAll`). What is at an event was
there, or it was made before. So the embedding that tells this is made up of what happened before the event.

There are few ways in which an event can change an object that is there (`Event.changes`). So what all of them keep is
kept by every run from a well-formed machine on (`Eval.Does.invariant`, `Eval.Does.allowed`), and only the deeds of the
run have to be looked at.
-/

namespace GuestScript

/-! ## 1. What is there -/

namespace State

/-- Whether an object holds the names of a scope. -/
def OwnsNames (s : State) (id : ObjectId) : Prop :=
  ∃ scope ∈ s.scopes, scope.kind.ownsNames = true ∧ scope.data = id

/-- Whether a script may get hold of an object: it is on the heap, and it does not hold the names of a scope. -/
def Present (s : State) (id : ObjectId) : Prop :=
  id.index < s.heap.size ∧ ¬ s.OwnsNames id

/-- The scopes that a state mentions, apart from the parents of scopes. -/
def mentionedScopes (s : State) : List ScopeId :=
  s.scope :: s.superScope :: s.globalScope ::
    s.heap.toList.flatMap fun o => o.callable.toList.flatMap Callable.scopes

/-- Whether a state holds all that it mentions. -/
structure WellFormed (s : State) : Prop where
  intrinsic : ∀ i : Intrinsic, s.Present i.id
  objects : ∀ id ∈ s.bindings :: s.addresses, s.Present id
  /-- Before there are scopes, the first one may be mentioned. -/
  scopes : ∀ id ∈ s.mentionedScopes, id.index ≤ s.scopes.size - 1
  code : ∀ o ∈ s.heap, ∀ c ∈ o.callable, c.Firm (· ≠ .parameter)
  names : ∀ id, s.OwnsNames id → id.index < s.heap.size ∧ (s.objectAt id).HoldsNames
  ordered : s.Ordered
  labels : s.realm.labels.size ≤ s.heap.size

end State

/-! ## 2. Embeddings of what is there -/

/-- The embedding that moves nothing, where what is there is within reach. -/
def Embedding.upTo (Names : ObjectId → Prop) (objects scopes : Nat)
    (h : ∀ i : Intrinsic, i.id.index < objects ∧ ¬ Names i.id) : Embedding where
  object := @id ObjectId
  scope id := id
  serial n := n
  Open id := id.index < objects ∧ ¬ Names id
  Closed id := id.index < objects ∧ Names id
  Scoped id := id.index ≤ scopes - 1
  Clear _ := False
  Sets mode := mode ≠ .parameter
  Constant _ _ := False
  object_injective _ _ h := h
  scope_injective _ _ h := h
  serial_injective h := h
  apart hopen hclosed := hopen.2 hclosed.2
  sets _ h := h
  sets_parameter h := absurd rfl h
  intrinsic_open := h
  intrinsic_fixed _ := rfl

/-- The embedding of what is there in a state. -/
def State.present (s : State) (h : ∀ i : Intrinsic, s.Present i.id) : Embedding :=
  .upTo s.OwnsNames s.heap.size s.scopes.size h

/-- Whether an embedding drops some objects and scopes on the end of a state: what comes behind them is moved to their
places. A scope that is dropped may still be run in, as one that is clear. -/
structure Embedding.Drops (e : Embedding) (s : State) (objects scopes : Nat) : Prop where
  object : ∀ {id}, e.Holds id → id.index < s.heap.size ∨ s.heap.size + objects ≤ id.index
  object_next : ∀ k, e.object ⟨s.heap.size + objects + k⟩ = ⟨s.heap.size + k⟩
  scope : ∀ {id}, e.Solid id → id.index < s.scopes.size ∨ s.scopes.size + scopes ≤ id.index
  scope_next : ∀ k, e.scope ⟨s.scopes.size + scopes + k⟩ = ⟨s.scopes.size + k⟩
  clear : ∀ {id}, e.Clear id →
    s.scopes.size ≤ id.index ∧ id.index < s.scopes.size + scopes ∧ (e.scope id).index < s.scopes.size
  constant : ∀ {id name}, ¬ e.Constant id name

namespace State

variable {e : Embedding} {s : State}

/-- The state with more objects and scopes on the end, and with another scope as the current one. -/
def grown (s : State) (objects : Array Object) (scopes : Array Scope) (current : ScopeId) : State :=
  { s with heap := s.heap ++ objects, scopes := s.scopes ++ scopes, scope := current }

theorem grown_nothing (s : State) : s.grown #[] #[] s.scope = s := by
  simp [grown]

section

variable {objects : Array Object} {scopes : Array Scope} {current : ScopeId}

theorem objectAt_grown {id : ObjectId} (h : id.index < s.heap.size) :
    (s.grown objects scopes current).objectAt id = s.objectAt id := by
  simp [objectAt, grown, Array.getElem?_append_left h]

theorem scopeAt_grown {id : ScopeId} (h : id.index < s.scopes.size) :
    (s.grown objects scopes current).scopeAt id = s.scopeAt id := by
  simp [scopeAt, grown, Array.getElem?_append_left h]

end

theorem scopeAt_of_size_le {id : ScopeId} (h : s.scopes.size ≤ id.index) : s.scopeAt id = default := by
  simp [scopeAt, Array.getElem?_eq_none h]

theorem mem_objectAt {id : ObjectId} (h : id.index < s.heap.size) : s.objectAt id ∈ s.heap := by
  rw [objectAt, Array.getD_eq_getD_getElem?, Array.getElem?_eq_getElem h]
  exact Array.getElem_mem h

end State

/-! ## 3. Well-formed states mirror themselves -/

namespace State.WellFormed

variable {e : Embedding} {s : State} {objects : Array Object} {scopes : Array Scope} {current : ScopeId}

section

variable (h : s.WellFormed)

include h

theorem within_object {o : Object} (ho : o ∈ s.heap) : Within (s.present h.intrinsic) o := by
  refine Object.within_of_open (fun c hc id hid => h.scopes id ?_) (h.code o ho) fun id hid => h.objects id ?_
  · simp only [mentionedScopes, List.mem_cons, List.mem_flatMap, Option.mem_toList]
    exact .inr (.inr (.inr ⟨o, Array.mem_toList_iff.mpr ho, c, hc, hid⟩))
  · simp only [addresses, List.mem_cons, List.mem_append, List.mem_flatMap]
    exact .inr (.inl (.inr ⟨o, Array.mem_toList_iff.mpr ho, hid⟩))

theorem within_registers : Within (s.present h.intrinsic) s.toRegisters := by
  refine Registers.within_of_open (h.scopes _ List.mem_cons_self) fun id hid => h.objects id ?_
  simp only [addresses, List.mem_cons, List.mem_append]
  exact .inr (.inl (.inl (.inl (.inl hid))))

theorem within_rules : Within (s.present h.intrinsic) s.rules := by
  refine Rules.within_of_open fun id hid => h.objects id ?_
  simp only [addresses, List.mem_cons, List.mem_append]
  exact .inr (.inl (.inl (.inl (.inr hid))))

theorem within_globals : Within (s.present h.intrinsic) s.realm.globals := by
  refine fun entry hentry => ⟨trivial, entry.2.within_iff.mpr fun id hid => h.objects id ?_⟩
  simp only [addresses, List.mem_cons, List.mem_append, List.mem_flatMap]
  exact .inr (.inl (.inl (.inr ⟨entry, hentry, hid⟩)))

/-- A scope that is there holds its names in an object that fits its sort, and its parent is there. -/
theorem kept_scope (he : e.Extends (s.present h.intrinsic)) (hconstant : ∀ {id name}, ¬ e.Constant id name)
    {id : ScopeId} (hid : id.index < s.scopes.size) :
    Within e (s.scopeAt id) ∧ image e (s.scopeAt id) = s.scopeAt id := by
  have hmem := State.mem_scopeAt hid
  have hparent : Within (s.present h.intrinsic) (s.scopeAt id).parent := fun parent hp =>
    Nat.le_sub_one_of_lt ((h.ordered id parent hp).trans hid)
  obtain ⟨hparent, hparent'⟩ := he.kept hparent
  have himage (hdata : e.object (s.scopeAt id).data = (s.scopeAt id).data) : image e (s.scopeAt id) = s.scopeAt id := by
    change { s.scopeAt id with data := e.object (s.scopeAt id).data, parent := image e (s.scopeAt id).parent } = _
    rw [hdata, hparent']
  cases howns : (s.scopeAt id).kind.ownsNames with
  | true =>
    have hnames : s.OwnsNames (s.scopeAt id).data := ⟨_, hmem, howns, rfl⟩
    obtain ⟨hclosed, hdata⟩ := he.closed ⟨(h.names _ hnames).1, hnames⟩
    refine ⟨⟨fun _ => hclosed, fun hopen => ?_, fun _ name hc => absurd hc hconstant, hparent⟩, himage hdata⟩
    cases howns.symm.trans hopen
  | false =>
    have hpresent : s.Present (s.scopeAt id).data := by
      refine h.objects _ ?_
      simp only [addresses, List.mem_cons, List.mem_append, List.mem_map, List.mem_filter]
      exact .inr (.inr ⟨_, ⟨Array.mem_toList_iff.mpr hmem, by rw [howns]; rfl⟩, rfl⟩)
    obtain ⟨hopen, hdata⟩ := he.object hpresent
    refine ⟨⟨fun hclosed => ?_, fun _ => hopen, fun _ name hc => absurd hc hconstant, hparent⟩, himage hdata⟩
    cases howns.symm.trans hclosed

/-- What has a place along an embedding is there and not moved, or it comes behind what is dropped. -/
theorem held (he : e.Extends (s.present h.intrinsic)) (hdrops : e.Drops s objects.size scopes.size) {id : ObjectId}
    (hid : e.Holds id) :
    (id.index < s.heap.size ∧ e.object id = id) ∨
      ∃ k, id = ⟨s.heap.size + objects.size + k⟩ ∧ e.object id = ⟨s.heap.size + k⟩ := by
  rcases hdrops.object hid with hlt | hge
  · refine .inl ⟨hlt, ?_⟩
    by_cases hnames : s.OwnsNames id
    · exact (he.closed ⟨hlt, hnames⟩).2
    · exact (he.object ⟨hlt, hnames⟩).2
  · obtain ⟨k, hk⟩ := Nat.exists_eq_add_of_le hge
    have hsame : id = ⟨s.heap.size + objects.size + k⟩ := congrArg ObjectId.mk hk
    exact .inr ⟨k, hsame, hsame ▸ hdrops.object_next k⟩

/-- The same for scopes. -/
theorem held_scope (he : e.Extends (s.present h.intrinsic)) (hdrops : e.Drops s objects.size scopes.size) {id : ScopeId}
    (hid : e.Solid id) :
    (id.index < s.scopes.size ∧ e.scope id = id) ∨
      ∃ k, id = ⟨s.scopes.size + scopes.size + k⟩ ∧ e.scope id = ⟨s.scopes.size + k⟩ := by
  rcases hdrops.scope hid with hlt | hge
  · exact .inl ⟨hlt, (he.scope (Nat.le_sub_one_of_lt hlt)).2⟩
  · obtain ⟨k, hk⟩ := Nat.exists_eq_add_of_le hge
    have hsame : id = ⟨s.scopes.size + scopes.size + k⟩ := congrArg ScopeId.mk hk
    exact .inr ⟨k, hsame, hsame ▸ hdrops.scope_next k⟩

theorem label?_of_size_le {id : ObjectId} (hid : s.heap.size ≤ id.index) : s.realm.label? id = none := by
  rw [Realm.label?, Array.getElem?_eq_none (h.labels.trans hid)]
  rfl

/-- **A well-formed state with objects and scopes on its end that an embedding drops is mirrored by the state itself.** -/
theorem mirrors_grown (he : e.Extends (s.present h.intrinsic)) (hdrops : e.Drops s objects.size scopes.size)
    (hcurrent : e.Scoped current) (himage : e.scope current = s.scope)
    (hclear : ∀ {id}, e.Clear id → e.Elides (s.grown objects scopes current) id)
    (hordered : (s.grown objects scopes current).Ordered) : e.Mirrors (s.grown objects scopes current) s := by
  have hsize : (s.grown objects scopes current).heap.size = s.heap.size + objects.size := Array.size_append
  have hsizes : (s.grown objects scopes current).scopes.size = s.scopes.size + scopes.size := Array.size_append
  have hbehind (k : Nat) : (s.grown objects scopes current).objectAt ⟨s.heap.size + objects.size + k⟩ = default :=
    objectAt_of_size_le (by simp only [hsize]; omega)
  have hbehind' (k : Nat) : (s.grown objects scopes current).scopeAt ⟨s.scopes.size + scopes.size + k⟩ = default :=
    scopeAt_of_size_le (by simp only [hsizes]; omega)
  have hsolid {id : ScopeId} (hid : id ∈ s.mentionedScopes) : e.Solid id ∧ e.scope id = id := by
    obtain ⟨hscoped, hsame⟩ := he.scope (h.scopes id hid)
    refine ⟨⟨hscoped, fun hc => ?_⟩, hsame⟩
    have hbounds := hdrops.clear hc
    have hle := h.scopes id hid
    omega
  have hsuper : s.superScope ∈ s.mentionedScopes := List.mem_cons_of_mem _ List.mem_cons_self
  have hglobal : s.globalScope ∈ s.mentionedScopes := List.mem_cons_of_mem _ (List.mem_cons_of_mem _ List.mem_cons_self)
  exact {
    within_registers := ⟨hcurrent, (he.kept h.within_registers).1.2⟩
    registers := by
      have hkept := congrArg (fun r : Registers => { r with scope := s.scope }) (he.kept h.within_registers).2
      rw [← himage] at hkept
      exact (hkept.trans (by rw [himage])).symm
    within_object := by
      intro id hid
      rcases h.held he hdrops hid with ⟨hlt, -⟩ | ⟨k, rfl, -⟩
      · rw [objectAt_grown hlt]
        exact (he.kept (h.within_object (mem_objectAt hlt))).1
      · rw [hbehind]
        exact Object.within_default
    object := by
      intro id hid
      rcases h.held he hdrops hid with ⟨hlt, hsame⟩ | ⟨k, rfl, hsame⟩
      · rw [hsame, objectAt_grown hlt, (he.kept (h.within_object (mem_objectAt hlt))).2]
      · rw [hsame, hbehind, objectAt_of_size_le (Nat.le_add_right _ _)]
        exact Object.image_default.symm
    names := by
      intro id hid
      rcases h.held he hdrops (.inr hid) with ⟨hlt, -⟩ | ⟨k, rfl, -⟩
      · rw [objectAt_grown hlt]
        refine (h.names id ?_).2
        by_contra hnot
        exact e.apart (he.object ⟨hlt, hnot⟩).1 hid
      · rw [hbehind]
        exact ⟨rfl, rfl, rfl, by simp [default]⟩
    object_lt := by
      intro id hid
      rcases h.held he hdrops hid with ⟨hlt, hsame⟩ | ⟨k, rfl, hsame⟩
      · rw [hsame, hsize]
        omega
      · rw [hsame, hsize]
        dsimp only
        omega
    object_next := by
      intro k
      rw [hsize]
      exact hdrops.object_next k
    within_scope := by
      intro id hid
      rcases h.held_scope he hdrops hid with ⟨hlt, -⟩ | ⟨k, rfl, -⟩
      · rw [scopeAt_grown hlt]
        exact (h.kept_scope he hdrops.constant hlt).1
      · rw [hbehind']
        exact ⟨nofun, fun _ => e.intrinsic_open .objectPrototype, nofun, within_none⟩
    scope := by
      intro id hid
      rcases h.held_scope he hdrops hid with ⟨hlt, hsame⟩ | ⟨k, rfl, hsame⟩
      · rw [hsame, scopeAt_grown hlt, (h.kept_scope he hdrops.constant hlt).2]
      · rw [hsame, hbehind', scopeAt_of_size_le (Nat.le_add_right _ _)]
        exact congrArg (Scope.mk · none .global []) (e.intrinsic_fixed .objectPrototype).symm
    clear := hclear
    scope_lt := by
      intro id hid
      rw [hsizes]
      by_cases hc : e.Clear id
      · have hbounds := hdrops.clear hc
        omega
      · rcases h.held_scope he hdrops ⟨hid, hc⟩ with ⟨hlt, hsame⟩ | ⟨k, rfl, hsame⟩
        · rw [hsame]
          omega
        · rw [hsame]
          dsimp only
          omega
    scope_next := by
      intro k
      rw [hsizes]
      exact hdrops.scope_next k
    ordered := hordered
    ordered' := h.ordered
    serial_next := fun k => he.serial _
    within_globals := (he.kept h.within_globals).1
    globals := (he.kept h.within_globals).2.symm
    label := by
      intro id hid
      rcases h.held he hdrops hid with ⟨hlt, hsame⟩ | ⟨k, rfl, hsame⟩
      · rw [hsame]
        rfl
      · rw [hsame, h.label?_of_size_le (Nat.le_add_right _ _)]
        exact (h.label?_of_size_le (by dsimp only; omega)).symm
    within_rules := (he.kept h.within_rules).1
    rules := (he.kept h.within_rules).2.symm
    within_bindings := (he.object (h.objects _ List.mem_cons_self)).1
    bindings := (he.object (h.objects _ List.mem_cons_self)).2.symm
    within_superScope := (hsolid hsuper).1
    superScope := (hsolid hsuper).2.symm
    within_globalScope := (hsolid hglobal).1.1
    globalScope := (hsolid hglobal).2.symm
    lastPosition := rfl }

end

end State.WellFormed

/-! ## 4. What happened before an event -/

namespace Log.Leads

variable {s t : State} {l : Log}

/-- What is there at the start is there at the end, and holds no names that were made on the way. -/
theorem present_upTo (hleads : Log.Leads s l t) (h : s.WellFormed) (i : Intrinsic) :
    i.id.index < t.heap.size ∧ ¬ (s.OwnsNames i.id ∨ l.HoldsNames i.id) := by
  obtain ⟨hlt, hnot⟩ := h.intrinsic i
  refine ⟨Nat.lt_of_lt_of_le hlt hleads.size_le.1, ?_⟩
  rintro (hnames | hnames)
  · exact hnot hnames
  · exact absurd hlt (Nat.not_lt.mpr (hleads.size_le_of_holdsNames hnames))

/-- The embedding of what is there after a log: what was there before it, and what was made on the way. -/
def upTo (hleads : Log.Leads s l t) (h : s.WellFormed) : Embedding :=
  .upTo (fun id => s.OwnsNames id ∨ l.HoldsNames id) t.heap.size t.scopes.size (hleads.present_upTo h)

theorem extends_upTo (hleads : Log.Leads s l t) (h : s.WellFormed) :
    (hleads.upTo h).Extends (s.present h.intrinsic) where
  object {id} hid := by
    refine ⟨⟨Nat.lt_of_lt_of_le hid.1 hleads.size_le.1, ?_⟩, rfl⟩
    rintro (hnames | hnames)
    · exact hid.2 hnames
    · exact absurd hid.1 (Nat.not_lt.mpr (hleads.size_le_of_holdsNames hnames))
  closed {id} hid := ⟨⟨Nat.lt_of_lt_of_le hid.1 hleads.size_le.1, .inl hid.2⟩, rfl⟩
  scope {id} hid := by
    have hle := hleads.scopes_le.1
    exact ⟨Nat.le_trans hid (Nat.sub_le_sub_right hle 1), rfl⟩
  serial _ := rfl
  sets := rfl

/-- A well-formed state is a mirror of itself along that embedding. -/
theorem mirrors_upTo (hleads : Log.Leads s l t) (h : s.WellFormed) : (hleads.upTo h).Mirrors s s := by
  have hdrops : (hleads.upTo h).Drops s (#[] : Array Object).size (#[] : Array Scope).size :=
    ⟨fun _ => Nat.lt_or_ge _ _, fun _ => rfl, fun _ => Nat.lt_or_ge _ _, fun _ => rfl, fun hc => hc.elim, fun hc => hc⟩
  have hscope := (hleads.extends_upTo h).kept h.within_registers
  have hmirrors := h.mirrors_grown (hleads.extends_upTo h) hdrops hscope.1.1 rfl (fun hc => hc.elim)
    (s.grown_nothing.symm ▸ h.ordered)
  rwa [s.grown_nothing] at hmirrors

/-- The embedding of what is there after a log fits the log. -/
theorem fits_upTo (hleads : Log.Leads s l t) (h : s.WellFormed) : l.Fits (hleads.upTo h) := by
  intro event he
  cases event with
  | finish x r => trivial
  | start x m =>
    cases x with
    | update u =>
      cases u with
      | allocate o =>
        obtain ⟨hge, hlt⟩ := hleads.taken_bounds he rfl
        refine ⟨hlt, ?_⟩
        rintro (hnames | ⟨event', he', lexical, hframe⟩)
        · exact absurd (h.names _ hnames).1 (Nat.not_lt.mpr hge)
        · have hsame := hleads.taken_unique he he' rfl (Event.taken_of_frame hframe)
          rw [← hsame] at hframe
          cases hframe
      | newFrame kind parent lexical held =>
        have hlt := hleads.scopes_lt_of_opens he trivial
        exact ⟨⟨(hleads.taken_bounds he rfl).2, .inr ⟨_, he, lexical, rfl⟩⟩, Nat.le_sub_one_of_lt hlt,
          fun _ hc => hc.elim⟩
      | newScope scope => exact Nat.le_sub_one_of_lt (hleads.scopes_lt_of_opens he trivial)
      | _ => trivial
    | _ => trivial

end Log.Leads

/-- A state is well-formed if it mentions nothing but what is there, for all that can be told along an embedding. -/
theorem State.WellFormed.of_mirrors {Names : ObjectId → Prop} {t t' : State}
    {hi : ∀ i : Intrinsic, i.id.index < t.heap.size ∧ ¬ Names i.id}
    (h : (Embedding.upTo Names t.heap.size t.scopes.size hi).Mirrors t t') (hlabels : t.realm.labels.size ≤ t.heap.size) :
    t.WellFormed := by
  have hholds (id : ObjectId) (hid : id.index < t.heap.size) :
      (Embedding.upTo Names t.heap.size t.scopes.size hi).Holds id :=
    (em (Names id)).symm.imp (⟨hid, ·⟩) (⟨hid, ·⟩)
  have hsolid (id : ScopeId) (hid : id.index < t.scopes.size) :
      (Embedding.upTo Names t.heap.size t.scopes.size hi).Solid id :=
    ⟨Nat.le_sub_one_of_lt hid, fun hc => hc⟩
  have hclosed {id : ObjectId} (hid : t.OwnsNames id) :
      (Embedding.upTo Names t.heap.size t.scopes.size hi).Closed id := by
    obtain ⟨scope, hscope, howns, rfl⟩ := hid
    exact HostCall.closed_of_ownsNames h hsolid hscope howns
  have hpresent {id : ObjectId} (hid : (Embedding.upTo Names t.heap.size t.scopes.size hi).Open id) : t.Present id :=
    ⟨hid.1, fun hnames => Embedding.apart _ hid (hclosed hnames)⟩
  have hobject (o : Object) (ho : o ∈ t.heap) : Within (Embedding.upTo Names t.heap.size t.scopes.size hi) o := by
    obtain ⟨i, hlt, rfl⟩ := Array.mem_iff_getElem.mp ho
    have hat : t.objectAt ⟨i⟩ = t.heap[i] := by simp [State.objectAt, hlt]
    rw [← hat]
    exact h.within_object (hholds ⟨i⟩ hlt)
  exact {
    intrinsic := fun i => hpresent (hi i)
    objects := List.forall_mem_cons.mpr
      ⟨hpresent h.within_bindings, fun id hid => hpresent (State.open_of_mirrors h hholds hsolid id hid)⟩
    scopes := by
      intro id hid
      simp only [State.mentionedScopes, List.mem_cons, List.mem_flatMap, Option.mem_toList] at hid
      rcases hid with rfl | rfl | rfl | ⟨o, ho, c, hc, hid⟩
      · exact h.within_registers.1
      · exact h.within_superScope.1
      · exact h.within_globalScope
      · exact Callable.scoped_of_within ((hobject o (Array.mem_toList_iff.mp ho)).callable c hc) id hid
    code := fun o ho c hc => Callable.firm_of_within ((hobject o ho).callable c hc)
    names := fun id hid => ⟨(hclosed hid).1, h.names (hclosed hid)⟩
    ordered := h.ordered
    labels := hlabels }

/-! ## 5. Runs -/

section

variable {ε α : Type} [Carried ε] {m : Machine} {r : EStateM.Result ε Machine α} {l : Log}

/-- Whether a run does the same on mirrors, along the embedding of what is there after any log. -/
structure Run.Grounded (hm : m.WellFormed) (r : EStateM.Result ε Machine α) (l : Log) : Prop where
  mirrored : ∀ {before : Log} {t : State} (hleads : Log.Leads m.toState before t),
    ∃ (P : α → Prop) (g : α → α) (r' : EStateM.Result ε Machine α), Run.Mirrored (hleads.upTo hm) P g r r' l

namespace Run.Grounded

variable {hm : m.WellFormed}

/-- Every event of the run is kept, along the embedding of what happened before it. -/
theorem kept (h : Run.Grounded hm r l) (hleads : Log.Leads m.toState l (finalMachine r).toState) {event : Event}
    (he : event ∈ l) :
    ∃ (before : Log) (hbefore : Log.Leads m.toState before event.machine.toState), event.Kept (hbefore.upTo hm) := by
  obtain ⟨before, after, rfl⟩ := List.append_of_mem he
  obtain ⟨t, hbefore, hevent, -⟩ := hleads.split
  have hbefore := hbefore.last hevent
  obtain ⟨P, g, r', hmirrored⟩ := h.mirrored hbefore
  exact ⟨before, hbefore, hmirrored.kept.after (hbefore.fits_upTo hm)⟩

/-- **The run keeps the machine well-formed**, at every event on the way and at its end. -/
theorem wellFormed (h : Run.Grounded hm r l) (hleads : Log.Leads m.toState l (finalMachine r).toState) :
    (∀ event ∈ l, event.machine.WellFormed) ∧ (finalMachine r).WellFormed := by
  have hlabels {l : Log} {t : State} (hleads : Log.Leads m.toState l t) : t.realm.labels.size ≤ t.heap.size := by
    rw [hleads.labels_eq]
    exact hm.labels.trans hleads.size_le.1
  refine ⟨fun event he => ?_, ?_⟩
  · obtain ⟨before, hbefore, hkept⟩ := h.kept hleads he
    obtain ⟨m', hreflects⟩ := hkept.mirrored
    exact .of_mirrors hreflects.state (hlabels hbefore)
  · obtain ⟨P, g, r', hmirrored⟩ := h.mirrored hleads
    exact .of_mirrors (hmirrored.relates (hleads.fits_upTo hm)).final.state (hlabels hleads)

end Run.Grounded

/-- An action that hands in nothing but what is there does the same on mirrors. -/
theorem Eval.grounded {x : Eval α} (hm : m.WellFormed) (n : Nat)
    (hx : ∀ e : Embedding, e.Extends (m.present hm.intrinsic) → ∃ P g x', x.Follows e P g x') :
    Run.Grounded hm (x.run (answers n) m) (x.log (answers n) (logs n) m) := by
  refine ⟨fun hleads => ?_⟩
  obtain ⟨P, g, x', hfollows⟩ := hx _ (hleads.extends_upTo hm)
  exact ⟨P, g, _, hfollows.mirrored (answers_mirrored _ n) ⟨hleads.mirrors_upTo hm, rfl, rfl⟩⟩

end

/-! ## 6. Host calls -/

namespace HostCall

variable {m : Machine}

/-- Whether a host runs nothing but what was compiled, and hands in nothing but what is there. -/
def IsPresent (c : HostCall) (m : Machine) : Prop :=
  c.IsCompiled ∧ ∀ id ∈ c.addresses, m.Present id

/-- The same for host calls one after the other, each at its time. -/
def AllPresent : List HostCall → Machine → Prop
  | [], _ => True
  | c :: rest, m => c.IsPresent m ∧ AllPresent rest (finalMachine (c.perform m))

/-- What is said about a state only depends on the log that leads to it. -/
theorem grounded {c : HostCall} (hm : m.WellFormed) (hc : c.IsPresent m) :
    Run.Grounded hm (c.perform m) (c.log m) := by
  refine ⟨fun hleads => ?_⟩
  have hwithin : Within (hleads.upTo hm) c := within_of_open hc.1 fun id hid =>
    ((hleads.extends_upTo hm).object (hc.2 id hid)).1
  exact ⟨_, _, _, c.mirrored hwithin ⟨hleads.mirrors_upTo hm, rfl, rfl⟩⟩

/-- Every event of a host call is kept, along the embedding of what happened before it. -/
theorem kept_log {c : HostCall} (hm : m.WellFormed) (hc : c.IsPresent m) {event : Event} (he : event ∈ c.log m) :
    ∃ (l : Log) (hleads : Log.Leads m.toState l event.machine.toState), event.Kept (hleads.upTo hm) :=
  (grounded hm hc).kept (c.leads_log m) he

/-- **A host call keeps a machine well-formed**, at every event on the way and at its end. -/
theorem wellFormed_log {c : HostCall} (hm : m.WellFormed) (hc : c.IsPresent m) :
    (∀ event ∈ c.log m, event.machine.WellFormed) ∧ (finalMachine (c.perform m)).WellFormed :=
  (grounded hm hc).wellFormed (c.leads_log m)

/-- **Host calls keep a machine well-formed**, at every event on the way and at the end. -/
theorem wellFormed_logAll {calls : List HostCall} (hm : m.WellFormed) (hcalls : AllPresent calls m) :
    (∀ event ∈ logAll calls m, event.machine.WellFormed) ∧ (performAll calls m).WellFormed := by
  induction calls generalizing m with
  | nil => exact ⟨fun _ he => (List.not_mem_nil he).elim, hm⟩
  | cons c rest ih =>
    obtain ⟨hlog, hlast⟩ := wellFormed_log hm hcalls.1
    obtain ⟨hrest, hend⟩ := ih hlast hcalls.2
    exact ⟨fun event he => (List.mem_append.mp he).elim (hlog event) (hrest event), hend⟩

end HostCall

/-! ## 7. The first machine -/

theorem State.not_ownsNames_of_empty {s : State} (hscopes : s.scopes = #[]) (id : ObjectId) : ¬ s.OwnsNames id := by
  rintro ⟨scope, hscope, -⟩
  rw [hscopes] at hscope
  exact absurd hscope (Array.not_mem_empty scope)

theorem State.present_of_empty {s : State} (hscopes : s.scopes = #[]) {ids : List ObjectId}
    (hids : ∀ id ∈ ids, id.index < s.heap.size) : ∀ id ∈ ids, s.Present id :=
  fun id hid => ⟨hids id hid, not_ownsNames_of_empty hscopes id⟩

/-- A state without scopes is well-formed if all objects that it mentions are on the heap, and its code is firm. -/
theorem State.wellFormed_of_empty {s : State} (hscopes : s.scopes = #[]) (hlabels : s.realm.labels = #[])
    (hintrinsic : ∀ i : Intrinsic, i.id.index < s.heap.size)
    (hobjects : ∀ id ∈ s.bindings :: s.addresses, id.index < s.heap.size)
    (hmentioned : ∀ id ∈ s.mentionedScopes, id.index = 0)
    (hcode : ∀ o ∈ s.heap, ∀ c ∈ o.callable, c.Firm (· ≠ .parameter)) : s.WellFormed := by
  have hnames := not_ownsNames_of_empty hscopes
  exact {
    intrinsic := fun i => ⟨hintrinsic i, hnames _⟩
    objects := present_of_empty hscopes hobjects
    scopes := fun id hid => (hmentioned id hid).trans_le (Nat.zero_le _)
    code := hcode
    names := fun id hid => absurd hid (hnames id)
    ordered := fun id parent hparent => by
      rw [scopeAt_of_size_le (by simp [hscopes])] at hparent
      cases hparent
    labels := by simp [hlabels] }

/-- **What is built on an empty machine is well-formed**, if it is the same on mirrors and begins with the intrinsic
objects. -/
theorem Eval.Builds.wellFormed {α : Type} [Carried α] {x : Eval α} (hx : x.Builds)
    (htracks : ∀ e : Embedding, x.Tracks e x) {m : Machine} (hend : finalMachine (x.runOn {}) = m)
    (hintrinsic : ∀ i : Intrinsic, i.id.index < m.heap.size) : m.WellFormed := by
  have hi (i : Intrinsic) : i.id.index < m.heap.size ∧ ¬ False := ⟨hintrinsic i, id⟩
  have hscopes : m.scopes.size = 0 := congrArg Array.size (hx.scopes_eq hend)
  have hstill : (Embedding.upTo (fun _ => False) m.heap.size m.scopes.size hi).Still :=
    ⟨fun _ => rfl, fun _ => rfl, fun _ => rfl, fun _ hc => hc⟩
  obtain ⟨s', hmirrors⟩ := hx.mirrors_end (htracks _) hstill hend (Nat.zero_le _) (fun _ hid => ⟨hid, fun h => h⟩)
    fun _ hc => hc.2
  have hlabels : m.realm.labels = #[] := by
    have hleads := Eval.leads_logOn x {}
    rw [hend] at hleads
    exact hleads.labels_eq
  exact .of_mirrors hmirrors (by rw [hlabels]; exact Nat.zero_le _)

namespace Machine

theorem wellFormed_sealed {m : Machine} (hbuilt : finalMachine (Eval.installAll.runOn {}) = m) :
    m.sealed.WellFormed := by
  have hsize : Intrinsic.all.length ≤ m.heap.size := length_all_le_size hbuilt
  have hintrinsic (i : Intrinsic) : i.id.index < m.heap.size := Nat.lt_of_lt_of_le i.index_lt hsize
  have hm := Eval.builds_installAll.wellFormed (fun _ => Eval.tracks_installAll) hbuilt hintrinsic
  have hlabels : m.sealed.realm.labels.size = m.heap.size := Realm.size_labelsOf m.heap m.realm.globals
  exact ⟨hm.intrinsic, hm.objects, hm.scopes, hm.code, hm.names, hm.ordered, Nat.le_of_eq hlabels⟩

/-- **The first machine is well-formed.** -/
theorem initial_wellFormed : initial.WellFormed := by
  unfold initial
  exact wellFormed_sealed rfl

end Machine

end GuestScript

namespace GuestScript

/-! ## 8. Events -/

namespace Event

variable {e : Embedding} {event : Event} {id : ObjectId}

/-- **What an event makes of an object**: nothing, one with another prototype, what a change makes of it, or what a
declaration makes of the object of its scope. -/
theorem changes (h : event.Allowed e) (hid : id.index < event.machine.heap.size) :
    event.after.objectAt id = event.machine.objectAt id ∨
      (∃ prototype, event.after.objectAt id = { event.machine.objectAt id with prototype := prototype }) ∨
      (∃ (α : Type) (f : Object → Object × α) (m : Machine), event = .start (.update (.object id f)) m ∧
        Object.Written f ∧ event.after.objectAt id = (f (m.objectAt id)).1) ∨
      ∃ (scope : ScopeId) (f : Object → Object) (m : Machine), event = .start (.update (.names scope f)) m ∧
        Object.Declares f ∧ (m.scopeAt scope).data = id ∧ event.after.objectAt id = f (m.objectAt id) := by
  cases event with
  | finish x r => exact .inl rfl
  | start x m =>
    change id.index < m.heap.size at hid
    cases x with
    | update u =>
      have hpush (o : Object) : State.objectAt { m.toState with heap := m.heap.push o } id = m.objectAt id := by
        rw [State.objectAt_push, if_neg (Nat.ne_of_lt hid)]
      -- one change of an object, whether scripts get hold of it or not
      have hobject {α : Type} (id' : ObjectId) (f : Object → Object × α) :
          (m.changeObject id' f).2.objectAt id = m.objectAt id ∨
            id' = id ∧ (m.changeObject id' f).2.objectAt id = (f (m.objectAt id)).1 := by
        by_cases hsame : id = id'
        · subst hsame
          exact .inr ⟨rfl, State.objectAt_changeObject hid f⟩
        · exact .inl (State.objectAt_changeObject_of_ne _ hsame f)
      obtain ⟨P, g, u', hu⟩ := h
      cases hu with
      | allocate ho => exact .inl (hpush _)
      | object hid' hw hf | closedObject hid' hw hf hnames =>
        rename_i id' f f'
        rcases hobject id' f with heq | ⟨rfl, heq⟩
        · exact .inl heq
        · exact .inr (.inr (.inl ⟨_, _, m, rfl, hw, heq⟩))
      | link hid' hprototype =>
        rename_i id' prototype
        rcases hobject id' (fun o =>
          if m.closesCircle id' prototype then (o, false) else ({ o with prototype := prototype }, true)) with heq | ⟨-, heq⟩
        · exact .inl heq
        · by_cases hcircle : m.closesCircle id' prototype = true
          · exact .inl (heq.trans (by rw [if_pos hcircle]; rfl))
          · exact .inr (.inl ⟨prototype, heq.trans (by rw [if_neg hcircle]; rfl)⟩)
      | names hscope hf hdeclares =>
        rename_i scope f f'
        rcases hobject (m.scopeAt scope).data fun o => (f o, ()) with heq | ⟨hdata, heq⟩
        · exact .inl heq
        · exact .inr (.inr (.inr ⟨scope, f, m, rfl, hdeclares, hdata, heq⟩))
      | newFrame hkind hparent hheld hvalues => exact .inl (hpush _)
      | result hv =>
        left
        change ((Update.result _).apply m.toState).2.objectAt id = m.objectAt id
        rw [Update.apply]
        split <;> rfl
      | newScope | unlock | newSymbol | global | position => exact .inl rfl
    | _ => exact .inl rfl

/-- What is no deed changes nothing. -/
theorem after_eq (h : event.isDeed = false) : event.after = event.machine.toState := by
  cases event with
  | finish x r => rfl
  | start x m =>
    cases x with
    | update u => cases h
    | _ => rfl

/-- The heap does not shrink in an event. -/
theorem size_le_after (event : Event) : event.machine.heap.size ≤ event.after.heap.size := by
  rw [event.size_after]
  exact Nat.le_add_right _ _

end Event

/-! ## 9. Runs -/

namespace Eval

variable {n : Nat} {α : Type} {x : Eval α} {m : Machine} {r : EStateM.Result Stop Machine α} {d : Log}

/-- What every deed of a run keeps holds at its end. -/
theorem Does.invariant (h : x.Does n m r d) {I : State → Prop}
    (hsame : ∀ {s s' : State}, s.SameStore s' → I s → I s')
    (hdeed : ∀ event ∈ d, I event.machine.toState → I event.after) (hm : I m.toState) : I (finalMachine r).toState := by
  have hleads := leads_log (answers_leads n) x m
  rw [h.result] at hleads
  refine (hleads.invariant hsame (fun event he hevent => ?_) hm).1
  by_cases hisDeed : event.isDeed = true
  · exact hdeed event (h.deeds ▸ List.mem_filter.mpr ⟨he, hisDeed⟩) hevent
  · rw [event.after_eq (by simpa using hisDeed)]
    exact hevent

/-- Every deed of an action that hands in nothing but what is there is one that a script may do. -/
theorem Does.allowed (h : x.Does n m r d) (hm : m.WellFormed)
    (hx : ∀ e : Embedding, e.Extends (m.present hm.intrinsic) → ∃ P g x', x.Follows e P g x') :
    ∀ event ∈ d, ∃ e, event.Allowed e := by
  intro event he
  have hlog : event ∈ x.log (answers n) (logs n) m := (List.mem_filter.mp (h.deeds ▸ he)).1
  obtain ⟨before, hbefore, hkept⟩ := (grounded hm n hx).kept (leads_log (answers_leads n) x m) hlog
  exact ⟨_, hkept.allowed⟩

end Eval

end GuestScript
