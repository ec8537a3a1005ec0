import GuestScript.Proofs.Balance
import GuestScript.Proofs.Trust.Builtin

/-!
# Trust in requests, and what trust is worth

What a request does can be trusted, with one exception: to let a parent class set up an instance writes the fields of
the class to whatever object it is given, and so do the built-in constructors. That is safe for an instance that is
free (`Request.Safe`); nothing in the code checks it.

Outside of calls and programs there may be no result to note. All three ways to run a function open a call before
they run code, and text is evaluated in a program of its own, so a request is trusted with either kind of watch.

A run of a trusted action keeps what a watch says of the states, unless one of two things happens on the way, which
nothing in the code checks for (`Event.Opens`):

* a parent class is asked to set up an instance that is not free;
* a name is written to a scope whose object is not free.

The log of a run shows both. The induction is on the action once more, and then on the nesting of requests.
-/

namespace GuestScript

variable {id : ObjectId}

/-- Whether a request gives only free objects to a parent class. -/
def Request.Safe (Free : ObjectId → Prop) : Request → Prop
  | .initParent _ (.object id) _ => Free id
  | _ => True

namespace Watch

/-- Without a target of `new`, any receiver will do. -/
@[simp] theorem receives_targeting_none (w : Watch) (receiver : Value) :
    (w.targeting none).Receives receiver := by
  intro h
  cases h

/-- A free instance may be received. -/
@[simp] theorem receives_free {w : Watch} (h : w.Free id) : w.Receives (.object id) := by
  rintro _ _ ⟨⟩
  exact h

@[simp] theorem noting_notes (w : Watch) : w.noting.notes = true := rfl

end Watch

namespace Eval

variable {α : Type} {w : Watch}

/-! ## 1. Functions of scripts -/

@[simp] theorem trusted_inCall {x : Eval α} (hx : x.Trusted w.noting) (name : String) :
    (inCall name x).Trusted w := by
  unfold inCall
  simp [*]

@[simp] theorem trusted_bindParameters (hn : w.notes = true) (args : Array Value)
    (l : List (Pattern × Bool)) (i : Nat) : (bindParameters args l i).Trusted w := by
  induction l generalizing i with
  | nil => trivial
  | cons parameter l ih =>
    have hbind : ∀ v, (parameter.1.bind v).Trusted w := parameter.1.trusted_bind hn
    unfold bindParameters
    simp [*]

@[simp] theorem trusted_runBody (hn : w.notes = true) (function : ObjectId) (template : Template)
    (scope : ScopeId) (args : Array Value) : (runBody function template scope args).Trusted w := by
  have hbody : template.body.exec.Trusted w := template.body.trusted_exec hn
  unfold runBody
  simp [*]

@[simp] theorem trusted_callClosure (function : ObjectId) (template : Template) (scope : ScopeId)
    (captured : Option Value) (receiver : Value) (args : Array Value) :
    (callClosure function template scope captured receiver args).Trusted w := by
  have hbody : ∀ inner, (runBody function template inner args).Trusted (w.noting.targeting none) := fun inner =>
    trusted_runBody rfl function template inner args
  refine (trusted_inCall ?_ template.name).bind fun completion _ => ?_
  · exact (trusted_newFrame _ _ _).bind fun inner _ => (trusted_read _).bind fun _ _ => hbody inner
  · split <;> simp

/-! ## 2. Classes -/

@[simp] theorem trusted_instanceOfConstructor (constructor : ObjectId) :
    (instanceOfConstructor constructor).Trusted w := by
  refine (trusted_object constructor).bind fun o _ => ?_
  split <;> simp

/-- The instance of a constructor is new. -/
theorem yields_instanceOfConstructor {constructor : ObjectId} (h : (instanceOfConstructor constructor).Yields w id) :
    w.Free id := by
  obtain ⟨o, _, h⟩ := h
  dsimp only at h
  split at h
  · exact yields_newObject h
  · exact yields_newPlain h

theorem trusted_initFields (hn : w.notes = true) (hid : w.Free id) (scope : ScopeId) (l : List ClassField) :
    (initFields scope id l).Trusted w := by
  induction l with
  | nil => trivial
  | cons field l ih =>
    have hcode : ∀ code : Code, code.exec.Trusted w := fun code => code.trusted_exec hn
    unfold initFields
    split <;> simp +contextual [*]

@[simp] theorem trusted_initInstance (hn : w.notes = true) (hid : w.Free id) (data : ClassFunction) (args : Array Value)
    : (initInstance data id args).Trusted w := by
  have hfields := trusted_initFields hn hid data.scope
  unfold initInstance
  extract_lets this rest
  have hrest : ∀ u, (rest u).Trusted w := by
    refine fun u => (hfields _).bind fun _ _ => ?_
    split
    · refine (trusted_object _).bind fun o _ => ?_
      split <;> simp
    · trivial
  split
  · split <;> simp [hrest]
  · exact hrest ()

/-! ## 3. Text -/

@[simp] theorem trusted_compileTree (tree : Node) (source : Option String) :
    (compileTree tree source).Trusted w := by
  unfold compileTree
  split <;> simp

@[simp] theorem trusted_compileText (text : String) : (compileText text).Trusted w := by
  refine (trusted_read _).bind fun rules _ => ?_
  split
  · trivial
  · split <;> simp

@[simp] theorem trusted_execute (hn : w.notes = true) (program : Program) : (execute program).Trusted w := by
  have hbody : program.body.exec.Trusted w := program.body.trusted_exec hn
  refine (trusted_read _).bind fun target _ => (trusted_declareVars _ _).bind fun _ _ =>
    (trusted_instantiate _ _).bind fun _ _ => trusted_currentScope.bind fun scope _ => ?_
  extract_lets rest
  have hrest : ∀ inner, (rest inner).Trusted w := by
    refine fun inner => ((trusted_inScope _ _).mpr hbody).bind fun completion _ => ?_
    split <;> trivial
  split <;> simp [hrest]

@[simp] theorem trusted_evalCode (code : Option Value) (scope : ScopeId) (receiver : Value) :
    (evalCode code scope receiver).Trusted w := by
  have hprogram : ∀ program, (execute program).Trusted w.noting := trusted_execute rfl
  unfold evalCode
  split
  · trivial
  · split
    · trivial
    · exact (trusted_compileText _).bind fun program _ => hprogram program
  · trivial

@[simp] theorem trusted_evalGlobally (code : Option Value) : (evalGlobally code).Trusted w := by
  unfold evalGlobally
  simp

@[simp] theorem trusted_functionFromTexts (args : Array Value) : (functionFromTexts args).Trusted w := by
  unfold functionFromTexts
  simp

@[simp] theorem trusted_openScopes (bindings : ObjectId) (rootContext : Option ObjectId) :
    (openScopes bindings rootContext).Trusted w := by
  unfold openScopes
  cases rootContext <;> simp

/-! ## 4. Requests -/

theorem trusted_callFunction (function receiver : Value) (args : Array Value) :
    (callFunction function receiver args).Trusted w := by
  refine (trusted_callable? function).bind fun found _ => ?_
  split
  · rename_i id c _
    rw [trusted_withNewTarget]
    cases c with
    | builtin b => exact b.trusted_run (Watch.receives_targeting_none w receiver) args
    | _ => simp
  · simp

theorem trusted_constructFunction (function : Value) (args : Array Value) :
    (constructFunction function args).Trusted w := by
  refine (trusted_callable? function).bind fun found _ => ?_
  split
  · rename_i id c _ _
    cases c with
    | builtin b =>
      refine (trusted_instanceOfConstructor id).bind fun instanceId h => Trusted.bind ?_ fun _ _ => trivial
      have hfree : w.Free instanceId := yields_instanceOfConstructor h
      have hreceives : (w.targeting (some id)).Receives (.object instanceId) := Watch.receives_free hfree
      exact b.trusted_run hreceives args
    | classFunction data =>
      refine (trusted_instanceOfConstructor id).bind fun instanceId h => trusted_inCall ?_ data.name
      have hfree : w.Free instanceId := yields_instanceOfConstructor h
      exact trusted_initInstance w.noting_notes hfree data args
    | _ => simp
  · simp

/-- A parent class may set up an instance that is free. -/
theorem trusted_initFromParent (parent : ObjectId) {receiver : Value}
    (h : ∀ id, receiver = .object id → w.Free id) (args : Array Value) :
    (initFromParent parent receiver args).Trusted w := by
  refine (trusted_object parent).bind fun o _ => ?_
  cases hc : o.callable with
  | none => simp
  | some c =>
    cases c with
    | classFunction data =>
      cases receiver with
      | object id =>
        exact trusted_inCall (trusted_initInstance w.noting_notes (h id rfl) data args) data.name
      | _ => trivial
    | builtin b =>
      have hreceives : (w.targeting (some parent)).Receives receiver := fun _ => h
      have hrun := b.trusted_run hreceives args
      simp [*]
    | _ => simp

/-- **Every safe request is trusted.** -/
theorem trusted_serve {request : Request} (h : request.Safe w.Free) : (serve request).Trusted w := by
  cases request with
  | call function receiver args => exact trusted_callFunction function receiver args
  | construct function args => exact trusted_constructFunction function args
  | evalText code scope receiver => exact trusted_evalCode code scope receiver
  | initParent parent receiver args =>
    refine trusted_initFromParent parent ?_ args
    rintro id rfl
    exact h

end Eval

end GuestScript

namespace GuestScript

variable {α : Type} {answers : Answers} {logs : RequestLogs} {m : Machine}

/-! ## 5. Doors -/

/-- Whether an event opens the way to objects that are not free. -/
def Event.Opens (Free : ObjectId → Prop) : Event → Prop
  | .start (.ask request) _ => ¬ request.Safe Free
  | .start (.update (.names scope _)) m => ¬ Free (m.scopeAt scope).data
  | _ => False

/-- Whether a log opens no way to objects that are not free. -/
def Log.Shut (Free : ObjectId → Prop) (l : Log) : Prop :=
  ∀ e ∈ l, ¬ e.Opens Free

namespace Log.Shut

variable {Free : ObjectId → Prop} {l l' : Log}

theorem nil (Free : ObjectId → Prop) : Log.Shut Free [] :=
  fun _ he => nomatch he

theorem append (h : Log.Shut Free l) (h' : Log.Shut Free l') : Log.Shut Free (l ++ l') :=
  fun e he => (List.mem_append.mp he).elim (h e) (h' e)

theorem left (h : Log.Shut Free (l ++ l')) : Log.Shut Free l :=
  fun e he => h e (List.mem_append_left l' he)

theorem right (h : Log.Shut Free (l ++ l')) : Log.Shut Free l' :=
  fun e he => h e (List.mem_append_right l he)

/-- If the log of an action is shut, so is what happens inside it. -/
theorem inside {x : Eval α} (h : Log.Shut Free (x.log answers logs m)) : Log.Shut Free (x.inside answers logs m) :=
  fun e he => h e (List.mem_cons_of_mem _ (List.mem_append_left _ he))

/-- An action whose log is shut is no door itself. -/
theorem start {x : Eval α} (h : Log.Shut Free (x.log answers logs m)) : ¬ (Event.start x m).Opens Free :=
  h _ List.mem_cons_self

end Log.Shut

/-! ## 6. Kept machines -/

/-- What a run keeps of a machine under a watch. -/
structure Watch.Keeps (w : Watch) (m m' : Machine) : Prop where
  fits : w.Fits m'.toState
  result : w.notes = false → m'.result = m.result

namespace Watch

variable {w : Watch} {m m' m'' : Machine}

/-- A frame frees no object. -/
theorem inside_free (w : Watch) (frame : Frame) : (w.inside frame).Free = w.Free := by
  cases frame <;> rfl

theorem Keeps.refl (h : w.Meets m.toState) : w.Keeps m m :=
  ⟨h.fits, fun _ => rfl⟩

theorem Keeps.trans (h : w.Keeps m m') (h' : w.Keeps m' m'') : w.Keeps m m'' :=
  ⟨h'.fits, fun hn => (h'.result hn).trans (h.result hn)⟩

/-- A machine that was kept and balanced can be met again. -/
theorem Meets.again (h : w.Meets m.toState) (hk : w.Keeps m m') (hb : Balanced m m') : w.Meets m'.toState :=
  ⟨hk.fits, fun ht => h.target (hb.newTarget ▸ ht)⟩

/-- Other registers are met under the watch inside the frame. -/
theorem Meets.enter (h : w.Meets m.toState) (frame : Frame) :
    (w.inside frame).Meets (m.withRegisters frame.enter).toState := by
  cases frame with
  | target t => exact ⟨w.fits_of_eq h.fits rfl rfl, fun h => h⟩
  | scope | receiver | program | joining => exact ⟨w.fits_of_eq h.fits rfl rfl, h.target⟩

theorem Meets.enterCall (h : w.Meets m.toState) (name : String) :
    w.noting.Meets (m.withRegisters (Registers.enterCall name)).toState :=
  ⟨w.fits_of_eq h.fits rfl rfl, h.target⟩

/-- What was kept inside a frame is kept after it. -/
theorem Keeps.leave {frame : Frame} (h : (w.inside frame).Keeps (m.withRegisters frame.enter) m') :
    w.Keeps m (m'.withRegisters (frame.leave m.toRegisters)) := by
  cases frame with
  | program => exact ⟨w.fits_of_eq h.fits rfl rfl, fun _ => rfl⟩
  | scope | receiver | target | joining => exact ⟨w.fits_of_eq h.fits rfl rfl, h.result⟩

/-- What was kept inside a call is kept after it; there is no result to note in a call. -/
theorem Keeps.leaveCall {name : String} (h : w.noting.Keeps (m.withRegisters (Registers.enterCall name)) m')
    (hb : Balanced (m.withRegisters (Registers.enterCall name)) m') :
    w.Keeps m (m'.withRegisters Registers.leaveCall) :=
  ⟨w.fits_of_eq h.fits rfl rfl, fun _ => hb.result_enterCall⟩

/-- Writes to free objects keep what holds. -/
theorem fits_changeObject {s : State} {id : ObjectId} (h : w.Fits s) (hid : w.Free id) (f : Object → Object × α) :
    w.Fits (s.changeObject id f).2 :=
  w.fits_set (w.fits_set h hid default) hid _

/-- An update that is allowed and no door keeps the machine. -/
theorem keeps_updated {u : Update α} (hu : u.Allowed w) (h : w.Meets m.toState)
    (hdoor : ¬ (Event.start (.update u) m).Opens w.Free) : w.Keeps m (finalMachine (m.updated u)) := by
  cases u with
  | allocate o => exact ⟨w.fits_push h.fits o, fun _ => rfl⟩
  | object id f => exact ⟨w.fits_changeObject h.fits hu f, fun _ => rfl⟩
  | link id prototype =>
    exact ⟨(w.fits_changeObject h.fits hu _ : w.Fits ((Update.link id prototype).apply m.toState).2), fun _ => rfl⟩
  | names scope f =>
    have hfree : w.Free (m.scopeAt scope).data := Classical.not_not.mp hdoor
    exact ⟨w.fits_changeObject h.fits hfree fun o => (f o, ()), fun _ => rfl⟩
  | result v =>
    refine ⟨w.fits_of_eq h.fits ?_ ?_, fun hn => ?_⟩
    · simp [Machine.updated, Update.apply.eq_def, finalMachine]
      split <;> rfl
    · simp [Machine.updated, Update.apply.eq_def, finalMachine]
      split <;> rfl
    · exact absurd (hu.symm.trans hn) (by decide)
  | newFrame kind parent lexical held =>
    exact ⟨w.fits_of_eq (w.fits_push h.fits { properties := held }) rfl rfl, fun _ => rfl⟩
  | newScope | unlock | newSymbol | global | position =>
    exact ⟨w.fits_of_eq h.fits rfl rfl, fun _ => rfl⟩

end Watch

/-! ## 7. Runs of trusted actions -/

/-- What a run of a trusted action is worth. -/
structure Eval.Sound {α : Type} (x : Eval α) (w : Watch) (m : Machine) (r : EStateM.Result Stop Machine α) :
    Prop where
  keeps : w.Keeps m (finalMachine r)
  yields : ∀ a m', r = .ok a m' → x.Yields w a

/-- Whether answers to requests are sound, as far as their logs are shut. -/
def Answers.Sound (answers : Answers) (logs : RequestLogs) : Prop :=
  ∀ (w : Watch) (request : Request) (m : Machine), w.Meets m.toState → request.Safe w.Free →
    (logs request m).Shut w.Free → w.Keeps m (finalMachine (answers request m))

theorem Run.between_ok {enter : Registers → Registers} {leave : Registers → Registers → Registers} {x : Run α}
    {m' : Machine} {a : α} (h : x.between enter leave m = .ok a m') :
    ∃ m₁, x (m.withRegisters enter) = .ok a m₁ := by
  rw [Run.between_eq] at h
  cases hx : x (m.withRegisters enter) with
  | ok b m₁ =>
    rw [hx] at h
    cases h
    exact ⟨m₁, rfl⟩
  | error e m₁ =>
    rw [hx] at h
    cases h

/-- The rounds of a loop keep the machine if each round does. -/
theorem Run.keeps_rounds {σ α : Type} {w : Watch} {round : σ → Run (Flow σ α)} {log : σ → Machine → Log}
    (hb : ∀ s m, Balanced m (finalMachine (round s m)))
    (h : ∀ s m, w.Meets m.toState → (log s m).Shut w.Free → w.Keeps m (finalMachine (round s m))) :
    ∀ (fuel : Nat) (s : σ) (m : Machine), w.Meets m.toState → (Run.roundsLog round log fuel s m).Shut w.Free →
      w.Keeps m (finalMachine (Run.rounds round fuel s m))
  | 0, _, _, hm, _ => .refl hm
  | fuel + 1, s, m, hm, hshut => by
    have hround := h s m hm hshut.left
    have hbalanced := hb s m
    have hrest := hshut.right
    unfold Run.rounds
    cases hr : round s m with
    | error e m' =>
      rw [hr] at hround
      exact hround
    | ok flow m' =>
      rw [hr] at hround hbalanced
      cases flow with
      | leave a => exact hround
      | proceed s' =>
        simp only [hr] at hrest
        dsimp only
        split
        · rename_i hcount
          simp only [hcount, if_true] at hrest
          exact hround.trans (keeps_rounds hb h fuel s' m' (hm.again hround hbalanced) hrest)
        · exact hround

namespace Eval

/-- **A run of a trusted action keeps the machine**, and gives what the action yields, unless a door is opened. -/
theorem run_sound (hb : ∀ request m, Balanced m (finalMachine (answers request m))) (hask : answers.Sound logs)
    (x : Eval α) (w : Watch) (m : Machine) (hx : x.Trusted w) (hm : w.Meets m.toState)
    (hshut : (x.log answers logs m).Shut w.Free) : x.Sound w m (x.run answers m) := by
  induction x generalizing w m with
  | done a => exact ⟨.refl hm, by rintro _ _ ⟨⟩; rfl⟩
  | stop s => exact ⟨.refl hm, by rintro _ _ ⟨⟩⟩
  | read f => exact ⟨.refl hm, by rintro _ _ ⟨⟩; exact ⟨_, hm, rfl⟩⟩
  | counted | clock => exact ⟨.refl hm, fun _ _ _ => trivial⟩
  | charge =>
    refine ⟨?_, fun _ _ _ => trivial⟩
    simp only [run, Machine.charged]
    split
    · exact .refl hm
    · split <;> exact ⟨hm.fits, fun _ => rfl⟩
  | update u =>
    refine ⟨w.keeps_updated hx hm hshut.start, ?_⟩
    intro a m' hr
    cases u with
    | allocate o =>
      obtain ⟨rfl, -⟩ : ⟨m.heap.size⟩ = a ∧ _ := by simpa [run, Machine.updated, Update.apply.eq_def] using hr
      exact w.fresh_free hm.fits
    | _ => trivial
  | andThen x f ihx ihf =>
    have hinside := hshut.inside
    rw [inside_andThen] at hinside
    have hx' := ihx w m hx.1 hm hinside.left
    have hbalanced := run_balanced hb x m
    have hrest := hinside.right
    simp only [run]
    cases hr : x.run answers m with
    | error e m' =>
      rw [hr] at hx'
      exact ⟨hx'.keeps, by rintro _ _ ⟨⟩⟩
    | ok a m' =>
      rw [hr] at hx' hbalanced
      simp only [hr] at hrest
      have ha := hx'.yields a m' rfl
      have hf := ihf a w m' (hx.2 a ha) (hm.again hx'.keeps hbalanced) hrest
      exact ⟨hx'.keeps.trans hf.keeps, fun b m'' h => ⟨a, ha, hf.yields b m'' h⟩⟩
  | settle x ih =>
    have hx' := ih w m hx hm (inside_settle answers logs m x ▸ hshut.inside)
    simp only [run]
    cases hr : x.run answers m with
    | ok a m' =>
      rw [hr] at hx'
      refine ⟨hx'.keeps, ?_⟩
      rintro _ _ ⟨⟩ b ⟨⟩
      exact hx'.yields a m' rfl
    | error e m' =>
      rw [hr] at hx'
      cases e with
      | thrown v =>
        refine ⟨hx'.keeps, ?_⟩
        rintro _ _ ⟨⟩ b ⟨⟩
      | interrupt | exhausted | panicked => exact ⟨hx'.keeps, by rintro _ _ ⟨⟩⟩
  | within frame x ih =>
    have hinside := hshut.inside
    rw [inside_within, ← w.inside_free frame] at hinside
    have hx' := ih (w.inside frame) (m.withRegisters frame.enter) hx (hm.enter frame) hinside
    simp only [run]
    refine ⟨?_, ?_⟩
    · rw [Run.between_eq, finalMachine_onMachine]
      exact hx'.keeps.leave
    intro a m' hr
    obtain ⟨m₁, h⟩ := Run.between_ok hr
    exact hx'.yields a m₁ h
  | nest name x refused ihx ihr =>
    have hinside := hshut.inside
    rw [inside_nest] at hinside
    simp only [run]
    by_cases hadmits : m.admitsCall = true
    · simp only [hadmits, if_true] at hinside ⊢
      have hx' := ihx w.noting (m.withRegisters (Registers.enterCall name)) hx.1 (hm.enterCall name) hinside
      refine ⟨?_, ?_⟩
      · rw [Run.between_eq, finalMachine_onMachine]
        exact hx'.keeps.leaveCall (run_balanced hb x _)
      intro a m' hr
      obtain ⟨m₁, h⟩ := Run.between_ok hr
      exact .inl (hx'.yields a m₁ h)
    · simp only [hadmits] at hinside ⊢
      have hr' := ihr w m hx.2 hm hinside
      exact ⟨hr'.keeps, fun a m' h => .inr (hr'.yields a m' h)⟩
  | loop round start ih =>
    have hinside := hshut.inside
    rw [inside_loop] at hinside
    refine ⟨?_, fun _ _ _ => trivial⟩
    exact Run.keeps_rounds (fun s m => run_balanced hb (round s) m)
      (fun s m hm hshut => (ih s w m (hx s) hm hshut).keeps) _ start m hm hinside
  | ask request =>
    refine ⟨hask w request m hm ?_ hshut.inside, fun _ _ _ => trivial⟩
    exact Classical.not_not.mp hshut.start

/-- The answers to requests are sound, however deep requests are nested. -/
theorem answers_sound : ∀ n : Nat, (Eval.answers n).Sound (Eval.logs n)
  | 0 => fun _ _ _ hm _ _ => .refl hm
  | n + 1 => fun w request m hm hsafe hshut =>
    (run_sound (answers_balanced n) (answers_sound n) (serve request) w m (trusted_serve hsafe) hm hshut).keeps

/-- A run of a trusted action, whatever its requests, keeps the machine unless a door is opened. -/
theorem keeps_run (n : Nat) {x : Eval α} {w : Watch} (hx : x.Trusted w) (hm : w.Meets m.toState)
    (hshut : (x.log (Eval.answers n) (Eval.logs n) m).Shut w.Free) :
    w.Keeps m (finalMachine (x.run (Eval.answers n) m)) :=
  (run_sound (answers_balanced n) (answers_sound n) x w m hx hm hshut).keeps

end Eval

end GuestScript
