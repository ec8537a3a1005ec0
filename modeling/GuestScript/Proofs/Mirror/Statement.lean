import GuestScript.Proofs.Mirror.Operation

/-!
# Statements on mirrors

A statement does the same on both sides, if its parts do. Its completion is moved along with its value.
-/

namespace GuestScript

variable {last : Completion} {x body test : Eval Completion} {l tests bodies : List (Eval Completion)}
  {functions : List (String × Template)} {copies : Bool} {scope : ScopeId} {update : Option (Eval Completion)}
  {bind : Value → Eval Unit} {e : Embedding}

/-! ## 1. Completions -/

instance : Carried Completion where
  Within e
    | .value v | .exit v => Within e v
    | _ => True
  image e
    | .value v => .value (image e v)
    | .exit v => .exit (image e v)
    | c => c

namespace Completion

@[simp] theorem toValue_image (c : Completion) : (image e c).toValue = image e c.toValue := by
  cases c <;> rfl

theorem within_toValue {c : Completion} (hc : Within e c) : Within e c.toValue := by
  cases c <;> exact hc

@[simp] theorem isAbrupt_image (c : Completion) : (image e c).isAbrupt = c.isAbrupt := by
  cases c <;> rfl

theorem takeJump_image (c : Completion) (labels : List String) (last : Completion) :
    (image e c).takeJump labels (image e last) = image e (c.takeJump labels last) := by
  cases c with
  | jumpOn label =>
    cases label with
    | none => rfl
    | some label =>
      change (if labels.contains label then Flow.proceed (image e last) else Flow.leave (jumpOn (some label))) =
        image e (if labels.contains label then Flow.proceed last else Flow.leave (jumpOn (some label)))
      split <;> rfl
  | jumpOut label => cases label <;> rfl
  | _ => rfl

theorem within_takeJump {c : Completion} (hc : Within e c) (hlast : Within e last) (labels : List String) :
    Within e (c.takeJump labels last) := by
  cases c with
  | jumpOn label =>
    cases label with
    | none => exact hlast
    | some label =>
      unfold takeJump
      dsimp only
      split
      · exact hlast
      · exact trivial
  | jumpOut label =>
    cases label with
    | none => exact hlast
    | some label => exact trivial
  | value v | exit v => exact hc
  | empty | defaultCase => exact hlast

end Completion

namespace Eval

variable {α : Type} {P : α → Prop} {g : α → α}

/-- An action that binds a value, wherever the value is. -/
def Binds (e : Embedding) (here : Bool) (bind : Value → Eval Unit) : Prop :=
  ∀ v, Within e v → (bind v).TracksAs e here (bind (image e v))

/-! ## 2. Statements -/

theorem follows_step {x x' : Eval α} (hx : x.Follows e P g x') (position : Option Position) :
    (step position x).Follows e P g (step position x') :=
  (tracks_tick position).bind fun _ _ => hx

theorem tracks_valueOf (hx : x.Tracks e x) : (valueOf x).Tracks e (valueOf x) :=
  hx.bind fun c hc => follows_pure (Completion.within_toValue hc) c.toValue_image

theorem tracks_sequence (h : ∀ x ∈ l, x.Tracks e x) (hlast : Within e last) :
    (sequence l last).Tracks e (sequence l (image e last)) := by
  induction l generalizing last with
  | nil => exact .done hlast
  | cons x l ih =>
    have hrest : ∀ x ∈ l, x.Tracks e x := fun y hy => h y (List.mem_cons_of_mem x hy)
    refine (h x List.mem_cons_self).bind fun c hc => ?_
    cases c with
    | empty | defaultCase => exact ih hrest hlast
    | value v =>
      have hvalue : Within e (Completion.value v) := hc
      exact ih hrest hvalue
    | exit v | jumpOut label | jumpOn label => exact .done hc

theorem tracks_noteResult {v : Value} (hv : Within e v) : (noteResult v).Tracks e (noteResult (image e v)) :=
  .update (.result hv)

theorem tracks_expressionStatement (hx : x.Tracks e x) : (expressionStatement x).Tracks e (expressionStatement x) :=
  (tracks_valueOf hx).bind fun _ hv => (tracks_noteResult hv).bind fun _ _ => .done hv

theorem follows_inBlock (hfunctions : Template.AllFirm e.Sets functions) {x x' : Eval α} (hx : x.Follows e P g x')
    (frame : LexicalFrame) :
    (inBlock frame functions x).Follows e P g (inBlock frame functions x') :=
  tracks_currentScope.bind fun _ hscope => (follows_newFrame rfl hscope frame).bind fun _ hblock =>
    follows_inScope hblock.1 ((tracks_instantiate hfunctions hblock).bind fun _ _ => hx)

theorem tracks_block (hfunctions : Template.AllFirm e.Sets functions) (hx : x.Tracks e x) (frame : LexicalFrame) :
    (block frame functions x).Tracks e (block frame functions x) :=
  Follows.ite Iff.rfl (fun _ => hx) fun _ => follows_inBlock hfunctions hx frame

theorem tracks_withObject {subject : Eval Completion} (hsubject : subject.Tracks e subject) (hbody : body.Tracks e body)
    : (withObject subject body).Tracks e (withObject subject body) := by
  refine (tracks_valueOf hsubject).bind fun v hv => (tracks_toObject hv).bind fun target htarget => ?_
  refine tracks_currentScope.bind fun current hcurrent => ?_
  have hscope : Within e ({ data := target, parent := some current, kind := .withObject } : Scope) :=
    ⟨nofun, fun _ => htarget, nofun, within_some.mpr hcurrent⟩
  exact (follows_newScope rfl hscope).bind fun scope hscope => follows_inScope hscope.1 hbody

theorem tracks_exit {x : Option (Eval Completion)} (hx : ∀ y ∈ x, y.Tracks e y) : (exit x).Tracks e (exit x) := by
  cases x with
  | none => exact .done trivial
  | some x => exact (tracks_valueOf (hx x rfl)).bind fun _ hv => .done hv

theorem tracks_labeled (hx : x.Tracks e x) (label : String) : (labeled label x).Tracks e (labeled label x) := by
  refine hx.bind fun c hc => ?_
  cases c with
  | jumpOut l =>
    cases l with
    | none => exact .done trivial
    | some l =>
      refine follows_pure ?_ ?_
      · split <;> trivial
      · split <;> rfl
  | _ => exact .done hc

theorem tracks_branch {consequent alternate : Eval Completion} (htest : test.Tracks e test)
    (hconsequent : consequent.Tracks e consequent) (halternate : alternate.Tracks e alternate) :
    (branch test consequent alternate).Tracks e (branch test consequent alternate) :=
  (tracks_valueOf htest).bind fun _ _ =>
    Follows.ite (by rw [Value.truthy_image]) (fun _ => hconsequent) fun _ => halternate

theorem tracks_chooseCase (h : ∀ x ∈ l, x.Tracks e x) {v : Value} (hv : Within e v) (i : Nat) (fallback : Option Nat) :
    (chooseCase v l i fallback).Follows e (fun _ => True) id (chooseCase (image e v) l i fallback) := by
  induction l generalizing i fallback with
  | nil => exact .done trivial
  | cons x l ih =>
    have hrest : ∀ x ∈ l, x.Tracks e x := fun y hy => h y (List.mem_cons_of_mem x hy)
    refine (h x List.mem_cons_self).bind fun c hc => ?_
    have hsame := Value.strictEquals_image (Completion.within_toValue hc) hv
    rw [← Completion.toValue_image] at hsame
    cases c with
    | defaultCase => exact ih hrest _ _
    | _ => exact Follows.ite (by rw [← hsame]) (fun _ => .done trivial) fun _ => ih hrest _ _

theorem tracks_switchBodies (h : ∀ x ∈ l, x.Tracks e x) (hlast : Within e last) :
    (switchBodies l last).Tracks e (switchBodies l (image e last)) := by
  induction l generalizing last with
  | nil => exact .done hlast
  | cons x l ih =>
    have hrest : ∀ x ∈ l, x.Tracks e x := fun y hy => h y (List.mem_cons_of_mem x hy)
    refine (h x List.mem_cons_self).bind fun c hc => ?_
    cases c with
    | empty | defaultCase => exact ih hrest hlast
    | value v =>
      have hvalue : Within e (Completion.value v) := hc
      exact ih hrest hvalue
    | jumpOut label =>
      cases label with
      | none => exact .done hlast
      | some label => exact .done trivial
    | exit v | jumpOn label => exact .done hc

theorem tracks_switchCases (htests : ∀ x ∈ tests, x.Tracks e x) (hbodies : ∀ x ∈ bodies, x.Tracks e x) {v : Value}
    (hv : Within e v) :
    (switchCases v tests bodies).Tracks e (switchCases (image e v) tests bodies) := by
  refine (tracks_chooseCase htests hv 0 none).bind fun found _ => ?_
  cases found with
  | none => exact .done trivial
  | some i =>
    have hempty : Within e Completion.empty := trivial
    exact tracks_switchBodies (fun x hx => hbodies x (List.mem_of_mem_drop hx)) hempty

theorem tracks_switch {discriminant : Eval Completion} (hdiscriminant : discriminant.Tracks e discriminant)
    (hfunctions : Template.AllFirm e.Sets functions) (htests : ∀ x ∈ tests, x.Tracks e x)
    (hbodies : ∀ x ∈ bodies, x.Tracks e x) (frame : LexicalFrame) :
    (switch discriminant frame functions tests bodies).Tracks e
      (switch discriminant frame functions tests bodies) :=
  (tracks_valueOf hdiscriminant).bind fun _ hv =>
    have hcases := tracks_switchCases htests hbodies hv
    Follows.ite Iff.rfl (fun _ => hcases) fun _ => follows_inBlock hfunctions hcases frame

/-- What the handler of a try statement is put together from. -/
def TracksHandler (e : Embedding) (handler : Option (Option (Value → Eval Unit) × Eval Completion)) : Prop :=
  ∀ h ∈ handler, (∀ bind ∈ h.1, Binds e true bind) ∧ h.2.Tracks e h.2

theorem tracks_handle {handler : Option (Value → Eval Unit) × Eval Completion}
    (hbind : ∀ bind ∈ handler.1, Binds e true bind) (hbody : handler.2.Tracks e handler.2) {thrown : Value}
    (hthrown : Within e thrown) : (handle handler thrown).Tracks e (handle handler (image e thrown)) := by
  refine tracks_currentScope.bind fun outer houter => (follows_newFrame rfl houter []).bind fun scope hscope => ?_
  refine follows_inSolid hscope ?_
  cases h : handler.1 with
  | none => exact hbody.as
  | some bind => exact (hbind bind h thrown hthrown).bind fun _ _ => hbody.as

theorem tracks_guarded {handler : Option (Option (Value → Eval Unit) × Eval Completion)} (hbody : body.Tracks e body)
    (hhandler : TracksHandler e handler) :
    (guarded body handler).Tracks e (guarded body handler) := by
  cases handler with
  | none => exact hbody
  | some h =>
    obtain ⟨hbind, hlast⟩ := hhandler h rfl
    refine (FollowsAs.settle hbody).bind fun result hresult => ?_
    cases result with
    | ok c => exact .done hresult
    | error thrown => exact tracks_handle hbind hlast hresult

theorem tracks_attempt {handler : Option (Option (Value → Eval Unit) × Eval Completion)}
    {finalizer : Option (Eval Completion)} (hbody : body.Tracks e body) (hhandler : TracksHandler e handler)
    (hfinalizer : ∀ x ∈ finalizer, x.Tracks e x) :
    (attempt body handler finalizer).Tracks e (attempt body handler finalizer) := by
  have hguarded := tracks_guarded hbody hhandler
  cases finalizer with
  | none => exact hguarded
  | some last =>
    refine (FollowsAs.settle hguarded).bind fun result hresult => (hfinalizer last rfl).bind fun c hc => ?_
    refine Follows.ite (by rw [Completion.isAbrupt_image]) (fun _ => .done hc) fun _ => ?_
    cases result with
    | ok c => exact .done hresult
    | error thrown => exact follows_throwValue hresult

/-! ### Loops -/

theorem tracks_whileLoop (htest : test.Tracks e test) (hbody : body.Tracks e body) (hcounts : body.Counts fun _ => True)
    (labels : List String) :
    (whileLoop labels test body).Tracks e (whileLoop labels test body) := by
  have hstart : Within e Completion.empty := trivial
  refine tracks_loop hstart rfl (fun last hlast => ?_) fun last _ => ?_
  · refine (tracks_valueOf htest).bind fun v _ => ?_
    refine Follows.ite (by rw [Value.truthy_image]) (fun _ => hbody.bind fun c hc => ?_) fun _ => .done hlast
    exact follows_pure (Completion.within_takeJump hc hlast labels) (Completion.takeJump_image c labels last)
  · exact Counts.second fun v => counts_ite (fun _ => hcounts.first) fun _ => counts_pure nofun

theorem tracks_doLoop (hbody : body.Tracks e body) (htest : test.Tracks e test) (hcounts : body.Counts fun _ => True)
    (labels : List String) :
    (doLoop labels body test).Tracks e (doLoop labels body test) := by
  have hstart : Within e Completion.empty := trivial
  refine tracks_loop hstart rfl (fun last hlast => ?_) fun last _ => hcounts.first
  refine hbody.bind fun c hc => ?_
  have hjump := Completion.within_takeJump hc hlast labels
  rw [Completion.takeJump_image]
  generalize c.takeJump labels last = flow at hjump ⊢
  cases flow with
  | leave c => exact .done hjump
  | proceed last =>
    refine (tracks_valueOf htest).bind fun v _ => follows_pure ?_ ?_
    · split <;> exact hjump
    · rw [Value.truthy_image]
      split <;> rfl

theorem tracks_passes {x : Option (Eval Completion)} (hx : ∀ y ∈ x, y.Tracks e y) :
    (passes x).Tracks e (passes x) := by
  cases x with
  | none => exact .done trivial
  | some x => exact (tracks_valueOf (hx x rfl)).bind fun v _ => follows_pure trivial v.truthy_image

theorem tracks_optionally {x : Option (Eval Completion)} (hx : ∀ y ∈ x, y.Tracks e y) :
    (optionally x).Tracks e (optionally x) := by
  cases x with
  | none => exact tracks_unit
  | some x => exact (hx x rfl).discard

/-- The scopes that the rounds of a loop run in, which are not clear if each round gets a copy. -/
def LoopScope (e : Embedding) : Bool → ScopeId → Prop
  | true => e.Solid
  | false => e.Scoped

theorem LoopScope.scoped (h : LoopScope e copies scope) : e.Scoped scope := by
  cases copies with
  | true => exact h.1
  | false => exact h

theorem follows_nextScope (hscope : LoopScope e copies scope) :
    (nextScope copies scope).Follows e (LoopScope e copies) e.scope (nextScope copies (e.scope scope)) := by
  cases copies with
  | true => exact follows_forkScope hscope
  | false => exact .done hscope

/-- What is said about the state of a for loop. -/
def LoopState (e : Embedding) (copies : Bool) (s : Completion × ScopeId) : Prop :=
  Within e s.1 ∧ LoopScope e copies s.2

theorem follows_forRound {test : Option (Eval Completion)} (htest : ∀ x ∈ test, x.Tracks e x)
    (hupdate : ∀ x ∈ update, x.Tracks e x) (hbody : body.Tracks e body) (labels : List String) (hlast : Within e last)
    (hscope : LoopScope e copies scope) :
    (forRound labels copies test update body last scope).Follows e (Flow.Satisfies (LoopState e copies) (Within e))
      (Flow.map (image e) (image e)) (forRound labels copies test update body (image e last) (e.scope scope)) := by
  refine (tracks_passes htest).bind fun passed _ => Follows.ite Iff.rfl (fun _ => ?_) fun _ => .done hlast
  refine hbody.bind fun c hc => ?_
  have hjump := Completion.within_takeJump hc hlast labels
  rw [Completion.takeJump_image]
  generalize c.takeJump labels last = flow at hjump ⊢
  cases flow with
  | leave c => exact .done hjump
  | proceed last =>
    refine (follows_nextScope hscope).bind fun next hnext => ?_
    exact (follows_inScope hnext.scoped (tracks_optionally hupdate)).bind fun _ _ => .done ⟨hjump, hnext⟩

/-- A round that goes on has run the body. -/
theorem counts_forRound {test : Option (Eval Completion)} (hcounts : body.Counts fun _ => True) (labels : List String)
    (copies : Bool) (last : Completion) (scope : ScopeId) :
    (forRound labels copies test update body last scope).Counts Flow.Proceeds :=
  Counts.second fun _ => counts_ite (fun _ => hcounts.first) fun _ => counts_pure nofun

theorem tracks_forLoop {init test : Option (Eval Completion)} (hinit : ∀ x ∈ init, x.Tracks e x)
    (htest : ∀ x ∈ test, x.Tracks e x) (hupdate : ∀ x ∈ update, x.Tracks e x) (hbody : body.Tracks e body)
    (hcounts : body.Counts fun _ => True) (labels : List String) (frame : LexicalFrame) :
    (forLoop labels frame init test update body).Tracks e (forLoop labels frame init test update body) := by
  have hloop {scope : ScopeId} (hscope : LoopScope e (!frame.isEmpty) scope) : (do
        inScope scope (optionally init)
        loop (fun (last, scope) => inScope scope (forRound labels (!frame.isEmpty) test update body last scope))
          (.empty, scope)).Tracks e
      (do
        inScope (e.scope scope) (optionally init)
        loop (fun (last, scope) => inScope scope (forRound labels (!frame.isEmpty) test update body last scope))
          (.empty, e.scope scope)) := by
    refine (follows_inScope hscope.scoped (tracks_optionally hinit)).bind fun _ _ => ?_
    have hstart : LoopState e (!frame.isEmpty) (Completion.empty, scope) := ⟨trivial, hscope⟩
    refine FollowsAs.loop (k := image e) (fun s hs => ?_) (fun s _ => ?_) hstart
    · exact follows_inScope hs.2.scoped (follows_forRound htest hupdate hbody labels hs.1 hs.2)
    · exact (counts_forRound hcounts labels _ s.1 s.2).within
  refine tracks_currentScope.bind fun outer houter => ?_
  cases hempty : frame.isEmpty with
  | true =>
    rw [hempty] at hloop
    exact (tracks_pure houter).bind fun scope hscope => hloop hscope
  | false =>
    rw [hempty] at hloop
    exact (follows_newFrame rfl houter frame).bind fun scope hscope => hloop hscope

theorem tracks_forInRound (hbind : Binds e false bind) (hbody : body.Tracks e body) (frame : LexicalFrame)
    (name : String) :
    (forInRound bind frame body name).Tracks e (forInRound bind frame body name) := by
  have hround : (do
      bind (.string name)
      body).Tracks e (do
      bind (.string name)
      body) := (hbind (.string name) trivial).bind fun _ _ => hbody
  refine Follows.ite Iff.rfl (fun _ => hround) fun _ => ?_
  exact tracks_currentScope.bind fun _ houter => (follows_newFrame rfl houter frame).bind fun _ hscope =>
    follows_inScope hscope.1 hround

theorem tracks_forInRounds (hbind : Binds e false bind) (hbody : body.Tracks e body) (labels : List String)
    {subject : ObjectId} (hsubject : e.Open subject) (frame : LexicalFrame) (names : List String)
    (hlast : Within e last) :
    (forInRounds labels subject bind frame body names last).Tracks e
      (forInRounds labels (e.object subject) bind frame body names (image e last)) := by
  induction names generalizing last with
  | nil => exact .done hlast
  | cons name names ih =>
    refine (tracks_hasProperty (.inl hsubject) (.string name)).bind fun has _ => ?_
    refine Follows.ite Iff.rfl (fun _ => ?_) fun _ => ih hlast
    refine (tracks_forInRound hbind hbody frame name).bind fun c hc => ?_
    have hjump := Completion.within_takeJump hc hlast labels
    rw [Completion.takeJump_image]
    generalize c.takeJump labels last = flow at hjump ⊢
    cases flow with
    | leave c => exact .done hjump
    | proceed last => exact ih hjump

theorem image_names (names : Array String) : image e names = names :=
  Array.map_id _

theorem tracks_forIn {subject : Eval Completion} (hsubject : subject.Tracks e subject) (hbind : Binds e false bind)
    (hbody : body.Tracks e body) (labels : List String) (frame : LexicalFrame) :
    (forIn labels subject bind frame body).Tracks e (forIn labels subject bind frame body) := by
  refine (tracks_valueOf hsubject).bind fun v hv => ?_
  refine Follows.ite (by rw [Value.isNullish_image]) (fun _ => .done trivial) fun _ => ?_
  refine (tracks_toObject hv).bind fun id hid => (tracks_enumerableNames hid).bind fun names _ => ?_
  have hstart : Within e Completion.empty := trivial
  rw [image_names]
  exact tracks_forInRounds hbind hbody labels hid frame names.toList hstart

theorem tracks_declare {l : List ((Value → Eval Unit) × Option (Eval Completion))}
    (h : ∀ d ∈ l, Binds e false d.1 ∧ ∀ x ∈ d.2, x.Tracks e x) : (declare l).Tracks e (declare l) := by
  induction l with
  | nil => exact .done trivial
  | cons d l ih =>
    obtain ⟨hbind, hinit⟩ := h d List.mem_cons_self
    have hrest := ih fun d' hd' => h d' (List.mem_cons_of_mem d hd')
    obtain ⟨bind, init⟩ := d
    have hundefined : Within e Value.undefined := trivial
    cases init with
    | none => exact (tracks_pure hundefined).bind fun v hv => (hbind v hv).bind fun _ _ => hrest
    | some x => exact (tracks_valueOf (hinit x rfl)).bind fun v hv => (hbind v hv).bind fun _ _ => hrest

end Eval

end GuestScript
