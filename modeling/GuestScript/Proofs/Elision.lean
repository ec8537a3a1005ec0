import GuestScript.Proofs.Lexical.Instantiation
import GuestScript.Proofs.Reach.WellFormed

/-!
# Blocks that declare nothing

A block whose statements declare nothing directly opens no scope (`Eval.block`). Nothing tells it from a block that does:
running the same statements in a fresh empty scope gives the same, as it leaves behind what the other run does with one
object and one scope left out (`block_scope_unobservable`).

That is a mirror along an embedding that drops the fresh object and sends the fresh scope to where its parent is. A name
is never bound in the fresh scope: declarations and assignments look for a scope of their own sort, and parameters are
only bound where a function has just opened its own scope.
-/

namespace GuestScript

/-! ## 1. A scope that is left out -/

/-- Whether an embedding leaves out one object and one scope behind those of a state: it knows all other ones, keeps
those before them where they are, and moves those behind them up. -/
structure Embedding.Omits (e : Embedding) (s : State) : Prop where
  object : ∀ id : ObjectId, id.index ≠ s.heap.size → e.Holds id
  object_before : ∀ id : ObjectId, id.index < s.heap.size → e.object id = id
  object_behind : ∀ k, e.object ⟨s.heap.size + 1 + k⟩ = ⟨s.heap.size + k⟩
  scope : ∀ id : ScopeId, id.index ≠ s.scopes.size → e.Solid id
  scope_before : ∀ id : ScopeId, id.index < s.scopes.size → e.scope id = id
  scope_behind : ∀ k, e.scope ⟨s.scopes.size + 1 + k⟩ = ⟨s.scopes.size + k⟩
  serial : ∀ n, e.serial n = n

/-- The embedding that leaves out the next object and the next scope of a state. -/
def State.omitNext (s : State) (Names : ObjectId → Prop)
    (h : ∀ i : Intrinsic, i.id.index < s.heap.size ∧ ¬ Names i.id) : Embedding where
  object id := if id.index ≤ s.heap.size then id else ⟨id.index - 1⟩
  scope id :=
    if id.index < s.scopes.size then id else if id.index = s.scopes.size then s.scope else ⟨id.index - 1⟩
  serial n := n
  Open id := id.index ≠ s.heap.size ∧ ¬ Names id
  Closed id := id.index ≠ s.heap.size ∧ Names id
  Scoped _ := True
  Clear id := id.index = s.scopes.size
  Sets mode := mode ≠ .parameter
  Constant _ _ := False
  object_injective {a b} ha hb hsame := by
    have ha : a.index ≠ s.heap.size := ha.elim (·.1) (·.1)
    have hb : b.index ≠ s.heap.size := hb.elim (·.1) (·.1)
    cases a
    cases b
    dsimp only at ha hb hsame
    split at hsame <;> split at hsame <;> simp only [ObjectId.mk.injEq] at hsame ⊢ <;> omega
  scope_injective {a b} ha hb hsame := by
    have ha : a.index ≠ s.scopes.size := ha.2
    have hb : b.index ≠ s.scopes.size := hb.2
    cases a
    cases b
    dsimp only at ha hb hsame
    rw [if_neg ha, if_neg hb] at hsame
    split at hsame <;> split at hsame <;> simp only [ScopeId.mk.injEq] at hsame ⊢ <;> omega
  serial_injective h := h
  apart hopen hclosed := hopen.2 hclosed.2
  sets _ h := h
  sets_parameter h := absurd rfl h
  intrinsic_open i := ⟨Nat.ne_of_lt (h i).1, (h i).2⟩
  intrinsic_fixed i := if_pos (Nat.le_of_lt (h i).1)

namespace State

variable {s : State} {Names : ObjectId → Prop} {hi : ∀ i : Intrinsic, i.id.index < s.heap.size ∧ ¬ Names i.id}

theorem omits_omitNext : (s.omitNext Names hi).Omits s where
  object id hid := (em (Names id)).symm.imp (⟨hid, ·⟩) (⟨hid, ·⟩)
  object_before id hid := if_pos (Nat.le_of_lt hid)
  object_behind k := by
    simp only [omitNext]
    rw [if_neg (by omega)]
    exact congrArg ObjectId.mk (by omega)
  scope id hid := ⟨trivial, hid⟩
  scope_before id hid := if_pos hid
  scope_behind k := by
    simp only [omitNext]
    rw [if_neg (by omega), if_neg (by omega)]
    exact congrArg ScopeId.mk (by omega)
  serial _ := rfl

theorem scope_omitNext : (s.omitNext Names hi).scope ⟨s.scopes.size⟩ = s.scope := by
  simp [omitNext]

/-- A scope that holds nothing, in a fresh object. -/
def freshBlock (s : State) : Scope :=
  { data := ⟨s.heap.size⟩, parent := some s.scope, kind := .block }

/-- The state in a fresh block. -/
def inFreshBlock (s : State) : State :=
  s.grown #[{}] #[s.freshBlock] ⟨s.scopes.size⟩

theorem scopeAt_inFreshBlock (s : State) : s.inFreshBlock.scopeAt ⟨s.scopes.size⟩ = s.freshBlock := by
  simp [inFreshBlock, grown, scopeAt]

theorem objectAt_inFreshBlock (s : State) : s.inFreshBlock.objectAt ⟨s.heap.size⟩ = {} := by
  simp [inFreshBlock, grown, objectAt]

/-- The fresh scope binds nothing, and stands where its parent does. -/
theorem elides_inFreshBlock (hscope : s.scope.index < s.scopes.size) :
    (s.omitNext Names hi).Elides s.inFreshBlock ⟨s.scopes.size⟩ where
  kind := by rw [scopeAt_inFreshBlock]; rfl
  lexical := by rw [scopeAt_inFreshBlock]; rfl
  parent := by
    rw [scopeAt_inFreshBlock]
    exact ⟨s.scope, rfl, trivial, scope_omitNext.trans (omits_omitNext.scope_before _ hscope).symm⟩
  index_lt := by simp [inFreshBlock, grown]
  data_lt := by
    rw [scopeAt_inFreshBlock]
    simp [inFreshBlock, grown, freshBlock]
  data := by
    rw [scopeAt_inFreshBlock]
    exact fun h => h.elim (fun h => h.1 rfl) fun h => h.1 rfl
  empty name := by
    rw [scopeAt_inFreshBlock]
    change (s.inFreshBlock.objectAt ⟨s.heap.size⟩).hasOwn _ = false
    rw [objectAt_inFreshBlock]
    exact congrArg Option.isSome (own?_default _)

theorem ordered_inFreshBlock (hs : s.Ordered) (hscope : s.scope.index < s.scopes.size) : s.inFreshBlock.Ordered := by
  intro id parent hparent
  rcases Nat.lt_trichotomy id.index s.scopes.size with hlt | heq | hgt
  · rw [inFreshBlock, scopeAt_grown hlt] at hparent
    exact hs id parent hparent
  · obtain rfl : id = ⟨s.scopes.size⟩ := congrArg ScopeId.mk heq
    rw [scopeAt_inFreshBlock] at hparent
    obtain rfl : s.scope = parent := Option.some.inj hparent
    exact hscope
  · rw [scopeAt_of_size_le (by simpa [inFreshBlock, grown] using hgt)] at hparent
    cases hparent

/-- **In a fresh block, a state is as it was**, along an embedding that leaves the block out. -/
theorem WellFormed.mirrors_inFreshBlock (h : s.WellFormed) (hscopes : 0 < s.scopes.size)
    (hnames : ∀ id : ObjectId, id.index < s.heap.size → (Names id ↔ s.OwnsNames id)) :
    (s.omitNext Names hi).Mirrors s.inFreshBlock s := by
  have hmentioned (id : ScopeId) (hid : id.index ≤ s.scopes.size - 1) : id.index < s.scopes.size := by omega
  have hscope : s.scope.index < s.scopes.size := hmentioned _ (h.scopes _ List.mem_cons_self)
  have hextends : (s.omitNext Names hi).Extends (s.present h.intrinsic) :=
    { object := fun {id} hid =>
        ⟨⟨Nat.ne_of_lt hid.1, fun hn => hid.2 ((hnames id hid.1).mp hn)⟩, omits_omitNext.object_before id hid.1⟩
      closed := fun {id} hid =>
        ⟨⟨Nat.ne_of_lt hid.1, (hnames id hid.1).mpr hid.2⟩, omits_omitNext.object_before id hid.1⟩
      scope := fun {id} hid => ⟨trivial, omits_omitNext.scope_before id (hmentioned id hid)⟩
      serial := fun _ => rfl
      sets := rfl }
  have hdrops : (s.omitNext Names hi).Drops s (#[{}] : Array Object).size #[s.freshBlock].size :=
    { object := fun {id} hid => by
        have hne : id.index ≠ s.heap.size := hid.elim (·.1) (·.1)
        change id.index < s.heap.size ∨ s.heap.size + 1 ≤ id.index
        omega
      object_next := omits_omitNext.object_behind
      scope := fun {id} hid => by
        have hne : id.index ≠ s.scopes.size := hid.2
        change id.index < s.scopes.size ∨ s.scopes.size + 1 ≤ id.index
        omega
      scope_next := omits_omitNext.scope_behind
      clear := fun {id} hid => by
        obtain rfl : id = ⟨s.scopes.size⟩ := congrArg ScopeId.mk hid
        rw [scope_omitNext]
        exact ⟨Nat.le_refl _, Nat.lt_succ_self _, hscope⟩
      constant := fun hc => hc }
  refine h.mirrors_grown hextends hdrops trivial scope_omitNext (fun {id} hid => ?_) (ordered_inFreshBlock h.ordered hscope)
  obtain rfl : id = ⟨s.scopes.size⟩ := congrArg ScopeId.mk hid
  exact elides_inFreshBlock hscope

end State

/-! ## 2. Runs in a fresh block -/

/-- The machine in a fresh block. -/
def Machine.inEmptyBlock (m : Machine) : Machine :=
  { m with toState := m.toState.inFreshBlock }

namespace Eval

variable {α : Type} {m : Machine}

/-- A block without declarations only puts an action into a fresh scope. -/
theorem run_inBlock_empty (answers : Answers) (x : Eval α) (hscope : m.scope.index < m.scopes.size) :
    (inBlock [] [] x).run answers m =
      onMachine (·.withRegisters fun r => { r with scope := m.scope }) (x.run answers m.inEmptyBlock) := by
  have hcurrent : currentScope.run answers m = .ok m.scope m := rfl
  let m₀ := finalMachine (m.updated (.newFrame .block (some m.scope) [] #[]))
  have hopen : (newFrame .block m.scope []).run answers m = .ok ⟨m.scopes.size⟩ m₀ := rfl
  have hparent : (some m.scope).filter (fun parent => decide (parent.index < m.scopes.size)) = some m.scope := by
    simp [Option.filter, hscope]
  have hentered : m₀.withRegisters (Frame.scope ⟨m.scopes.size⟩).enter = m.inEmptyBlock := by
    simp only [m₀, finalMachine, Machine.updated, Update.apply.eq_def, State.pushScope, Machine.withRegisters, Frame.enter.eq_def, hparent]
    rfl
  refine (run_bind_of_ok hcurrent).trans ((run_bind_of_ok hopen).trans ?_)
  simp only [inScope, run, Run.between_eq]
  rw [hentered]
  rfl

/-- **A fresh block around an action that follows itself cannot be told**: the run in it leaves behind what the run
without it does, with the object and the scope of the block left out. -/
theorem relates_inBlock_empty [Carried α] {x : Eval α}
    (hx : ∀ e : Embedding, x.Tracks e x) (n : Nat) (hm : m.WellFormed)
    (hscopes : 0 < m.scopes.size) : ∃ e : Embedding, e.Omits m.toState ∧
      e.Relates (Within e) (image e) ((inBlock [] [] x).run (answers n) m) (x.run (answers n) m) := by
  let l := x.log (answers n) (logs n) m.inEmptyBlock
  have hleads : Log.Leads m.inEmptyBlock.toState l (finalMachine (x.run (answers n) m.inEmptyBlock)).toState :=
    x.leads_log (answers_leads n) m.inEmptyBlock
  have hsize : m.inEmptyBlock.heap.size = m.heap.size + 1 := Array.size_append
  have hlater {id : ObjectId} (hid : l.HoldsNames id) : m.heap.size < id.index := by
    have hle := hleads.size_le_of_holdsNames hid
    omega
  have hnames (id : ObjectId) (hid : id.index < m.heap.size) : (m.OwnsNames id ∨ l.HoldsNames id) ↔ m.OwnsNames id :=
    or_iff_left fun hlog => Nat.lt_asymm hid (hlater hlog)
  have hi (i : Intrinsic) : i.id.index < m.heap.size ∧ ¬ (m.OwnsNames i.id ∨ l.HoldsNames i.id) :=
    ⟨(hm.intrinsic i).1, fun hn => (hm.intrinsic i).2 ((hnames _ (hm.intrinsic i).1).mp hn)⟩
  let e := m.toState.omitNext (fun id => m.OwnsNames id ∨ l.HoldsNames id) hi
  have hfits : l.Fits e := by
    intro event he
    cases event with
    | finish x r => trivial
    | start y m₁ =>
      cases y with
      | update u =>
        cases u with
        | allocate o =>
          obtain ⟨hge, -⟩ := hleads.taken_bounds he rfl
          refine ⟨by simp only at hge ⊢; omega, ?_⟩
          rintro (howns | ⟨event', he', lexical, hframe⟩)
          · have hlt := (hm.names _ howns).1
            simp only at hge hlt
            omega
          · have hsame := hleads.taken_unique he he' rfl (Event.taken_of_frame hframe)
            rw [← hsame] at hframe
            cases hframe
        | newFrame kind parent lexical held =>
          obtain ⟨hge, -⟩ := hleads.taken_bounds he rfl
          refine ⟨⟨by simp only at hge ⊢; omega, .inr ⟨_, he, lexical, rfl⟩⟩, trivial, fun _ hc => hc.elim⟩
        | newScope scope => trivial
        | _ => trivial
      | _ => trivial
  have hscope : m.scope.index < m.scopes.size := by
    have hle := hm.scopes _ List.mem_cons_self
    omega
  have hreflects : e.Reflects m.inEmptyBlock m := ⟨hm.mirrors_inFreshBlock hscopes hnames, rfl, rfl⟩
  have hrelates := ((hx e).mirrored (answers_mirrored e n) hreflects).relates hfits
  refine ⟨e, State.omits_omitNext, ?_⟩
  rw [run_inBlock_empty _ _ hscope]
  -- The run without a block ends in the scope that it started in, so it makes no difference to go back there.
  have hback : onMachine (·.withRegisters fun r => { r with scope := m.scope }) (x.run (answers n) m) =
      x.run (answers n) m := by
    have hbalanced := (run_balanced (answers_balanced n) x m).scope
    generalize x.run (answers n) m = r at hbalanced
    cases r with
    | ok a m₁ => exact congrArg (EStateM.Result.ok a) (by rw [← hbalanced]; rfl)
    | error s m₁ => exact congrArg (EStateM.Result.error s) (by rw [← hbalanced]; rfl)
  rw [← hback]
  refine hrelates.onMachine fun m₁ m₁' hm₁ => ?_
  obtain ⟨-, hreceiver, hresult, htarget, hjoining⟩ := hm₁.state.within_registers
  refine hm₁.withRegisters (f := fun r => { r with scope := m.scope }) ⟨trivial, hreceiver, hresult, htarget, hjoining⟩ ?_
  exact congrArg (fun scope => { image e m₁.toRegisters with scope := scope })
    (State.omits_omitNext.scope_before _ hscope).symm

end Eval

/-! ## 3. Blocks that declare nothing -/

/-- **The scope of a block that declares nothing cannot be told.** Let the statements of a block declare no lexical name
and no function directly. The code that they are lowered to runs in the current scope. On every well-formed machine with a
scope, running it in a fresh empty scope inside that one ends in the same way, with the same steps counted, and leaves the
same behind, with the object and the scope of the fresh one left out. From the first machine on, all machines that come up
during host calls are well-formed. -/
theorem block_scope_unobservable (l : List Node) (hlexical : lexicalFrame l = []) (hfunctions : Node.declarations l = [])
    (span : Span) (labels : List String) (depth : Nat) :
    (Lower.Gives (Kind.lower (.blockStatement l) span labels depth) fun c => ∃ body, c = .block [] [] body ∧
      ∀ (n : Nat) (m : Machine), m.WellFormed → 0 < m.scopes.size → ∃ e : Embedding, e.Omits m.toState ∧
        e.Relates (Within e) (image e) ((Eval.inBlock [] [] body.exec).run (Eval.answers n) m)
          (c.exec.run (Eval.answers n) m)) ∧
    Machine.initial.WellFormed ∧
    ∀ (calls : List HostCall) (m : Machine), m.WellFormed → HostCall.AllPresent calls m →
      (∀ event ∈ HostCall.logAll calls m, event.machine.WellFormed ∧ m.scopes.size ≤ event.machine.scopes.size) ∧
        (HostCall.performAll calls m).WellFormed := by
  refine ⟨fun s c s' h => ?_, Machine.initial_wellFormed, fun calls m hm hcalls => ?_⟩
  · obtain ⟨functions, body, hc, all, hall, hkept⟩ := Kind.hoists_lower_block l span labels depth s c s' h
    rw [hfunctions] at hall
    cases hall
    obtain rfl : functions = [] := hkept
    rw [hlexical] at hc
    subst hc
    refine ⟨body, rfl, fun n m hm hscopes => ?_⟩
    have hblock (e : Embedding) : (Code.block [] [] body).Firm e.Sets :=
      (@Kind.follows_lower ⟨e.Sets, e.sets⟩ (.blockStatement l) span labels depth).gives s _ s' h
    exact Eval.relates_inBlock_empty (fun e => body.tracks_exec (hblock e).2) n hm hscopes
  · obtain ⟨hlog, hend⟩ := HostCall.wellFormed_logAll hm hcalls
    exact ⟨fun event he => ⟨hlog event he, (HostCall.leads_logAll calls m).scopes_le.2 event he⟩, hend⟩

/-- A statement that reads a name. -/
def readStatement : Node :=
  ⟨.expressionStatement ⟨.identifier "x", ⟨2, 3, none⟩⟩ none, ⟨2, 4, none⟩⟩

/-- The first machine, bound to the object that all objects inherit from. -/
def boundMachine : Machine :=
  HostCall.performAll [.reset Intrinsic.objectPrototype.id {}] Machine.initial

/-- A block that reads a name declares nothing; it is lowered, and its scope cannot be told on the first machine once that
is bound. -/
theorem block_scope_unobservable_read : lexicalFrame [readStatement] = [] ∧ Node.declarations [readStatement] = [] ∧
    ∃ body s', Kind.lower (.blockStatement [readStatement]) ⟨0, 6, none⟩ [] 0 ⟨none, [{}]⟩ = .ok (.block [] [] body) s' ∧
      ∃ e : Embedding, e.Omits boundMachine.toState ∧
        e.Relates (Within e) (image e)
          ((Eval.inBlock [] [] body.exec).run (Eval.answers nestingLimit) boundMachine)
          (body.exec.run (Eval.answers nestingLimit) boundMachine) := by
  obtain ⟨hgives, hinitial, hcalls⟩ := block_scope_unobservable [readStatement] rfl rfl ⟨0, 6, none⟩ [] 0
  obtain ⟨c, s', hlower⟩ : ∃ c s', Kind.lower (.blockStatement [readStatement]) ⟨0, 6, none⟩ [] 0 ⟨none, [{}]⟩ = .ok c s' := ⟨_, _, rfl⟩
  obtain ⟨body, rfl, hruns⟩ := hgives ⟨none, [{}]⟩ c s' hlower
  have hpresent : HostCall.AllPresent [.reset Intrinsic.objectPrototype.id {}] Machine.initial :=
    ⟨⟨trivial, List.forall_mem_singleton.mpr (hinitial.intrinsic .objectPrototype)⟩, trivial⟩
  have hbound : 0 < boundMachine.scopes.size :=
    Nat.zero_lt_of_lt (HostCall.kind_superScope_reset Intrinsic.objectPrototype.id {} Machine.initial).1
  exact ⟨rfl, rfl, body, s', hlower, hruns nestingLimit boundMachine (hcalls _ _ hinitial hpresent).2 hbound⟩

end GuestScript
