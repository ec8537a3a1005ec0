import GuestScript.Proofs.Mirror.Sound

/-!
# Host calls on mirrors

What a host does with a machine does the same on a mirror, when the host hands in what corresponds: the bindings, the
options, functions and arguments of the one side, moved to the other side.
-/

namespace GuestScript

variable {e : Embedding}

/-! ## 1. What a host hands in and gets -/

instance : Carried Options where
  Within e options := Within e options.toRules
  image e options := { options with toRules := image e options.toRules }

instance : Carried HostCall where
  Within e
    | .reset bindings options => Within e bindings ∧ Within e options
    | .evaluate _ => True
    | .run p => p.Firm e.Sets
    | .call function receiver args => Within e function ∧ Within e receiver ∧ Within e args
    | .construct function args => Within e function ∧ Within e args
  image e
    | .reset bindings options => .reset (image e bindings) (image e options)
    | .evaluate source => .evaluate source
    | .run p => .run p
    | .call function receiver args => .call (image e function) (image e receiver) (image e args)
    | .construct function args => .construct (image e function) (image e args)

instance : Carried Failure where
  Within e
    | .uncaught _ value => Within e value
    | _ => True
  image e
    | .uncaught message value => .uncaught message (image e value)
    | f => f

/-! ## 2. Actions that a host runs -/

theorem Embedding.Mirrors.describeThrown {s s' : State} (h : e.Mirrors s s') {v : Value} (hv : Within e v) :
    s'.describeThrown (image e v) = s.describeThrown v := by
  cases v with
  | object id =>
    have hsort : (s'.objectAt (e.object id)).sort = (s.objectAt id).sort := by
      rw [h.object (.inl hv), Object.sort_image]
    have hname : s'.plainValue (e.object id) "name" = image e (s.plainValue id "name") := h.plainValue (.inl hv) "name"
    have hmessage : s'.plainValue (e.object id) "message" = image e (s.plainValue id "message") :=
      h.plainValue (.inl hv) "message"
    have hnameText := h.display (h.within_plainValue (.inl hv) "name")
    have hmessageText := h.display (h.within_plainValue (.inl hv) "message")
    have hdisplay : s'.display (.object (e.object id)) = s.display (.object id) := h.display hv
    change State.describeThrown s' (.object (e.object id)) = s.describeThrown (.object id)
    simp only [State.describeThrown, hsort, hname, hmessage, Value.isUndefined_image, hnameText, hmessageText, hdisplay]
  | _ => exact h.display hv

section

variable {α : Type} {P : α → Prop} {g : α → α} {m m' : Machine}

theorem Embedding.Relates.surfaced {r r' : EStateM.Result Stop Machine α} (h : e.Relates P g r r') :
    e.Relates P g (GuestScript.surfaced r) (GuestScript.surfaced r') := by
  cases h with
  | ok ha hm => exact .ok ha hm
  | error hs hm =>
    rename_i s m m'
    cases s with
    | thrown v =>
      change e.Relates P g (.error (Failure.uncaught (m.describeThrown v) v) m)
        (.error (Failure.uncaught (m'.describeThrown (image e v)) (image e v)) m')
      rw [hm.state.describeThrown hs]
      exact .error (s := Failure.uncaught _ v) hs hm
    | interrupt i => exact .error (s := Failure.interrupt i) trivial hm
    | exhausted => exact .error (s := Failure.exhausted) trivial hm
    | panicked => exact .error (s := Failure.panicked) trivial hm

/-- An action that a host runs does the same on a mirror. -/
theorem Session.mirrored_ofEval {x x' : Eval α} (h : x.Follows e P g x') (hm : e.Reflects m m') :
    Run.Mirrored e P g (ofEval x m) (ofEval x' m') (x.logOn m) := by
  rw [ofEval_eq, ofEval_eq]
  exact (h.mirrored (Eval.answers_mirrored e nestingLimit) hm).map Embedding.Relates.surfaced

end

/-! ## 3. Scopes of a program -/

theorem State.isAccessor_builtinNames (s : State) (bindings : ObjectId) :
    ∀ entry ∈ s.builtinNames bindings, entry.2.isAccessor = false := by
  intro entry hentry
  obtain ⟨⟨name, v⟩, -, hheld⟩ := List.mem_filterMap.mp (List.mem_toArray.mp hentry)
  dsimp only at hheld
  split at hheld
  · cases hheld
  · cases hheld
    rfl

namespace Embedding.Mirrors

variable {s s' : State}

theorem within_builtinNames (h : e.Mirrors s s') (bindings : ObjectId) : Within e (s.builtinNames bindings) := by
  refine within_toArray fun entry hentry => ?_
  obtain ⟨⟨name, v⟩, hglobal, hheld⟩ := List.mem_filterMap.mp hentry
  dsimp only at hheld
  split at hheld
  · cases hheld
  · cases hheld
    exact ⟨trivial, (h.within_globals _ hglobal).2⟩

theorem builtinNames (h : e.Mirrors s s') {bindings : ObjectId} (hbindings : e.Open bindings) :
    s'.builtinNames (e.object bindings) = image e (s.builtinNames bindings) := by
  have hown (name : String) : (s'.objectAt (e.object bindings)).hasOwn (.string name) =
      (s.objectAt bindings).hasOwn (.string name) := by
    rw [h.object (.inl hbindings)]
    exact Object.hasOwn_image _ (.string name)
  unfold State.builtinNames
  rw [h.globals, image_toArray, image_list, image_list, List.filterMap_map, List.map_filterMap]
  refine congrArg List.toArray (congrArg (fun f => List.filterMap f s.realm.globals) (funext fun entry => ?_))
  obtain ⟨name, v⟩ := entry
  simp only [Function.comp, image_pair, image_string, hown]
  split <;> rfl

end Embedding.Mirrors

/-- The scopes that host calls run in: names can be bound in the first one. -/
def Embedding.Opened (e : Embedding) (opened : ScopeId × ScopeId) : Prop :=
  e.Solid opened.1 ∧ e.Scoped opened.2

theorem Eval.follows_openScopes {bindings : ObjectId} (hbindings : e.Open bindings) {root : Option ObjectId}
    (hroot : Within e root) :
    (openScopes bindings root).Follows e e.Opened (image e) (openScopes (e.object bindings) (image e root)) := by
  have hread : (read fun s => s.builtinNames bindings).Follows e
      (fun held => Within e held ∧ ∀ entry ∈ held, entry.2.isAccessor = false) (image e)
      (read fun s => s.builtinNames (e.object bindings)) :=
    .read fun s s' h => ⟨⟨h.within_builtinNames bindings, State.isAccessor_builtinNames s bindings⟩, h.builtinNames hbindings⟩
  refine hread.bind fun held hheld => ?_
  have hframe : (openFrame .super none [] held).Follows e e.Solid e.scope (openFrame .super none [] (image e held)) :=
    .update (.newFrame rfl within_none hheld.1 hheld.2)
  refine hframe.bind fun superScope hsuper => ?_
  have hlast (parent : ScopeId) (hparent : e.Scoped parent) : (do
        let globalScope ← newScope { data := bindings, parent := some parent, kind := .global }
        pure (superScope, globalScope)).Follows e e.Opened (image e)
      (do
        let globalScope ← newScope { data := e.object bindings, parent := some (e.scope parent), kind := .global }
        pure (e.scope superScope, globalScope)) := by
    have hscope : Within e ({ data := bindings, parent := some parent, kind := .global } : Scope) :=
      ⟨nofun, fun _ => hbindings, nofun, within_some.mpr hparent⟩
    exact (follows_newScope rfl hscope).bind fun _ hglobal => .done ⟨hsuper, hglobal.1⟩
  cases root with
  | none =>
    have hparent : (pure superScope : Eval ScopeId).Follows e e.Scoped e.scope (pure (e.scope superScope)) := .done hsuper.1
    exact hparent.bind hlast
  | some root =>
    refine (tracks_newObject hroot).bind fun data hdata => ?_
    have hscope : Within e ({ data := data, parent := some superScope, kind := .root } : Scope) :=
      ⟨nofun, fun _ => hdata, nofun, within_some.mpr hsuper.1⟩
    exact (follows_newScope rfl hscope).bind fun parent hparent => hlast parent hparent.1

/-! ## 4. Host calls -/

open Session (clearState restarted returned bound)

namespace Embedding.Reflects

variable {m m' : Machine}

theorem clearState (h : e.Reflects m m') : e.Reflects (clearState m) (Session.clearState m') := by
  have hregisters : Within e (Session.clearState m).toRegisters :=
    ⟨h.state.within_globalScope, h.state.within_bindings, trivial, within_none, within_nil⟩
  have himage : (Session.clearState m').toRegisters = image e (Session.clearState m).toRegisters := by
    simp only [Session.clearState, h.state.globalScope, h.state.bindings]
    rfl
  have hstate := h.state.withRegisters hregisters
  rw [← himage] at hstate
  exact ⟨{ hstate with lastPosition := rfl, clear := fun hclear => (h.state.clear hclear).same rfl rfl }, h.limits, h.steps⟩

theorem restarted (h : e.Reflects m m') : e.Reflects (restarted m) (Session.restarted m') :=
  ⟨h.clearState.state, h.limits, rfl⟩

theorem returned (h : e.Reflects m m') : e.Reflects (returned m) (Session.returned m') := by
  obtain ⟨-, hreceiver, hresult, htarget, hjoining⟩ := h.state.within_registers
  have hregisters : Within e { m.toRegisters with scope := m.globalScope } :=
    ⟨h.state.within_globalScope, hreceiver, hresult, htarget, hjoining⟩
  have himage : { m'.toRegisters with scope := m'.globalScope } =
      image e { m.toRegisters with scope := m.globalScope } := by
    rw [h.state.registers, h.state.globalScope]
    rfl
  have hstate := h.state.withRegisters hregisters
  rw [← himage] at hstate
  exact ⟨hstate, h.limits, h.steps⟩

/-- Machines that are bound to what corresponds reflect each other, whatever they were bound to before. -/
theorem bound (h : e.Reflects m m') {bindings : ObjectId} (hbindings : e.Open bindings) {options : Options}
    (hoptions : Within e options) {opened : ScopeId × ScopeId} (hopened : e.Opened opened) :
    e.Reflects (bound bindings options opened m)
      (Session.bound (e.object bindings) (image e options) (image e opened) m') := by
  have hswitched : e.Reflects
      { m with superScope := opened.1, globalScope := opened.2, bindings := bindings,
               rules := options.toRules, limits := options.toLimits, steps := 0 }
      { m' with superScope := e.scope opened.1, globalScope := e.scope opened.2, bindings := e.object bindings,
                rules := image e options.toRules, limits := options.toLimits, steps := 0 } :=
    ⟨{ h.state with
        within_rules := hoptions, rules := rfl, within_bindings := hbindings, bindings := rfl,
        within_superScope := hopened.1, superScope := rfl, within_globalScope := hopened.2, globalScope := rfl,
        clear := fun hclear => (h.state.clear hclear).same rfl rfl },
      rfl, rfl⟩
  exact hswitched.clearState

end Embedding.Reflects

/-- What is wrong with a source is no matter of addresses. -/
theorem Rules.within_treeOf {rules : Rules} {source : Source} {f : Failure} (h : rules.treeOf source = .error f) :
    Within e f ∧ image e f = f := by
  unfold treeOf at h
  split at h
  · cases h
  split at h
  · cases h
    exact ⟨trivial, rfl⟩
  split at h
  · cases h
  · cases h
    exact ⟨trivial, rfl⟩

namespace HostCall

variable {m m' : Machine}

theorem mirrored_run {p : Program} (hp : p.Firm e.Sets) (hm : e.Reflects m m') :
    Run.Mirrored e (Within e) (image e) (Session.run p m) (Session.run p m') (runLog p m) := by
  rw [run_eq, run_eq]
  unfold runLog
  refine ((Eval.tracks_execute hp).mirrored (Eval.answers_mirrored e nestingLimit) hm.restarted).append
    fun hrelates => ?_
  change e.Relates _ _ ((Eval.execute p).runOn (restarted m)) ((Eval.execute p).runOn (restarted m')) at hrelates
  generalize (Eval.execute p).runOn (restarted m') = r' at hrelates
  cases hr : (Eval.execute p).runOn (restarted m) with
  | error s m₁ =>
    rw [hr] at hrelates
    cases hrelates with
    | error hs hm₁ =>
      rename_i m₁'
      have hfailed : e.Relates (Within e) (image e) (.error s (returned m₁) : EStateM.Result Stop Machine Value)
          (.error (image e s) (returned m₁')) := .error hs hm₁.returned
      exact .nil hfailed.surfaced
  | ok v m₁ =>
    rw [hr] at hrelates
    cases hrelates with
    | ok hv hm₁ => exact Session.mirrored_ofEval (Eval.tracks_hideGlobal hv) hm₁.returned

/-- **A host call does the same on a mirror.** -/
theorem mirrored (c : HostCall) (hc : Within e c) (hm : e.Reflects m m') :
    Run.Mirrored e (Within e) (image e) (c.perform m) ((image e c).perform m') (c.log m) := by
  cases c with
  | reset bindings options =>
    have himage : image e (reset bindings options) = reset (e.object bindings) (image e options) := rfl
    have hroot : (image e options).rootContext = image e options.rootContext := rfl
    rw [himage, reset_eq, reset_eq, hroot]
    refine (Session.mirrored_ofEval (Eval.follows_openScopes hc.1 hc.2.1) hm).map fun hrelates => ?_
    generalize Session.ofEval (Eval.openScopes (e.object bindings) (image e options.rootContext)) m' = r' at hrelates
    cases hr : Session.ofEval (Eval.openScopes bindings options.rootContext) m with
    | error f m₁ =>
      rw [hr] at hrelates
      cases hrelates with
      | error hf hm₁ => exact .error hf hm₁
    | ok opened m₁ =>
      rw [hr] at hrelates
      cases hrelates with
      | ok hopened hm₁ =>
        exact .ok (a := Value.undefined) trivial (hm₁.bound hc.1 hc.2 hopened)
  | evaluate source =>
    have htree : m'.rules.treeOf source = m.rules.treeOf source := by rw [hm.state.rules]; rfl
    have himage : image e (evaluate source) = evaluate source := rfl
    rw [himage, evaluate_eq, evaluate_eq]
    simp only [Session.parse, htree, log]
    cases hparsed : m.rules.treeOf source with
    | error f =>
      obtain ⟨hf, hsame⟩ := Rules.within_treeOf (e := e) hparsed
      have hfailed : e.Relates (Within e) (image e) (.error f m : EStateM.Result Failure Machine Value)
          (.error (image e f) m') := .error hf hm
      rw [hsame] at hfailed
      exact .nil hfailed
    | ok parsed =>
      dsimp only
      refine (Session.mirrored_ofEval (Eval.tracks_compileTree parsed.1 parsed.2) hm).append fun hrelates => ?_
      rw [Session.ofEval_eq, Session.ofEval_eq] at hrelates
      simp only [Session.ofEval_eq]
      generalize surfaced ((Eval.compileTree parsed.1 parsed.2).runOn m') = r' at hrelates
      cases hr : (Eval.compileTree parsed.1 parsed.2).runOn m with
      | error s m₁ =>
        rw [hr] at hrelates
        cases s <;> (cases hrelates with | error hf hm₁ => exact .nil (.error hf hm₁))
      | ok p m₁ =>
        rw [hr] at hrelates
        cases hrelates with
        | ok hp hm₁ => exact mirrored_run hp hm₁
  | run p => exact mirrored_run hc hm
  | call function receiver args =>
    exact Session.mirrored_ofEval ((Eval.tracks_callFunction hc.1 hc.2.1 hc.2.2).bind fun v hv =>
      Eval.tracks_hideGlobal hv) hm.restarted
  | construct function args =>
    exact Session.mirrored_ofEval (Eval.tracks_constructFunction hc.1 hc.2) hm.restarted

/-! ### One after the other -/

/-- How host calls end that are made one after the other. -/
def outcomes : List HostCall → Machine → List (EStateM.Result Failure Machine Value)
  | [], _ => []
  | c :: rest, m => c.perform m :: outcomes rest (finalMachine (c.perform m))

/-- Host calls that are made one after the other do the same on a mirror. -/
theorem mirrored_all {calls : List HostCall} {m m' : Machine} (hcalls : Within e calls) (hm : e.Reflects m m')
    (hfits : (logAll calls m).Fits e) :
    List.Forall₂ (e.Relates (Within e) (image e)) (outcomes calls m) (outcomes (image e calls) m') ∧
      (∀ event ∈ logAll calls m, event.Kept e) ∧ e.Reflects (performAll calls m) (performAll (image e calls) m') := by
  induction calls generalizing m m' with
  | nil =>
    simp only [image_list, List.map_nil, outcomes, logAll, performAll]
    exact ⟨List.Forall₂.nil, fun _ he => (List.not_mem_nil he).elim, hm⟩
  | cons c rest ih =>
    rw [logAll] at hfits
    obtain ⟨hc, hrest⟩ := within_cons.mp hcalls
    have hmirrored := c.mirrored hc hm
    have hrelates := hmirrored.relates hfits.left
    obtain ⟨houtcomes, hkept, hlast⟩ := ih hrest hrelates.final hfits.right
    rw [image_list, List.map_cons, outcomes, outcomes, logAll, performAll, performAll]
    refine ⟨.cons hrelates houtcomes, fun event he => ?_, hlast⟩
    exact (List.mem_append.mp he).elim (hmirrored.kept.of_fits hfits.left event) (hkept event)

end HostCall

end GuestScript
