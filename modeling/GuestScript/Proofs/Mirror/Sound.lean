import GuestScript.Proofs.Balance
import GuestScript.Proofs.Mirror.Call
import GuestScript.Proofs.Mirror.Update

/-!
# Runs on mirrors

Actions that follow each other along an embedding do the same on machines that reflect each other: the results
correspond, and so do the machines at the end. On the way, nothing that is out of reach or closed is handed on.

Where new objects and scopes are to be open or closed is not for the run to decide: the embedding has to say it
beforehand. Whether it says it in the right way can be seen from the log of one of the two runs (`Log.Fits`). So an
embedding is chosen in hindsight, when the log is there. What is said about an event only depends on what was foreseen
before it (`Log.Kept`).
-/

namespace GuestScript

variable {e : Embedding}

/-! ## 1. What corresponds -/

/-- Results that correspond, on machines that reflect each other. -/
inductive Embedding.Relates (e : Embedding) {ε α : Type} [Carried ε] (P : α → Prop) (g : α → α) :
    EStateM.Result ε Machine α → EStateM.Result ε Machine α → Prop where
  | ok {a : α} {m m' : Machine} (ha : P a) (hm : e.Reflects m m') : Relates e P g (.ok a m) (.ok (g a) m')
  | error {s : ε} {m m' : Machine} (hs : Within e s) (hm : e.Reflects m m') :
    Relates e P g (.error s m) (.error (image e s) m')

theorem Embedding.Relates.final {ε α : Type} [Carried ε] {P : α → Prop} {g : α → α}
    {r r' : EStateM.Result ε Machine α} (h : e.Relates P g r r') : e.Reflects (finalMachine r) (finalMachine r') := by
  cases h with
  | ok ha hm => exact hm
  | error hs hm => exact hm

/-! ## 2. Logs -/

/-- Whether an embedding has foreseen what an event does with the next address. -/
def Event.Fits (e : Embedding) : Event → Prop
  | .start (.update u) m => u.Fits e m.toState
  | _ => True

/-- Whether an embedding has foreseen all that a log does with new addresses. -/
def Log.Fits (e : Embedding) (l : Log) : Prop :=
  ∀ event ∈ l, event.Fits e

/-- Whether an action may start: a change is one that mirrors can share, and a request is within reach. -/
def Eval.MayStart (e : Embedding) : {α : Type} → Eval α → Prop
  | _, .update u => ∃ P g u', u.Follows e P g u'
  | _, .ask request => Within e request
  | _, _ => True

/-- Whether an action may give a result: what comes out of a request is within reach. -/
def Eval.MayGive (e : Embedding) : {α : Type} → Eval α → α → Prop
  | _, .ask _, v => Within e v
  | _, _, _ => True

/-- Whether an action may end so: what is thrown is within reach, too. -/
def Eval.MayEnd (e : Embedding) {α : Type} (x : Eval α) : EStateM.Result Stop Machine α → Prop
  | .ok a _ => x.MayGive e a
  | .error s _ => Within e s

/-- Whether an event keeps within reach. -/
def Event.Allowed (e : Embedding) : Event → Prop
  | .start x _ => x.MayStart e
  | .finish x r => x.MayEnd e r

/-- What is known about the events of a run. -/
structure Event.Kept (e : Embedding) (event : Event) : Prop where
  mirrored : ∃ m', e.Reflects event.machine m'
  allowed : event.Allowed e

/-- Whether the events of a log are kept for as long as it fits. -/
def Log.Kept (e : Embedding) : Log → Prop
  | [] => True
  | event :: rest => event.Kept e ∧ (event.Fits e → Log.Kept e rest)

namespace Log.Kept

variable {l l' : Log} {event : Event}

theorem append (h : Log.Kept e l) (h' : Log.Fits e l → Log.Kept e l') : Log.Kept e (l ++ l') := by
  induction l with
  | nil => exact h' fun _ he => nomatch he
  | cons event rest ih =>
    refine ⟨h.1, fun hevent => ih (h.2 hevent) fun hrest => h' ?_⟩
    exact List.forall_mem_cons.mpr ⟨hevent, hrest⟩

/-- An event is kept if all that happened before it fits. -/
theorem after (h : Log.Kept e (l ++ event :: l')) (hfits : Log.Fits e l) : event.Kept e := by
  induction l with
  | nil => exact h.1
  | cons first rest ih =>
    obtain ⟨hfirst, hrest⟩ := List.forall_mem_cons.mp hfits
    exact ih (h.2 hfirst) hrest

theorem of_fits (h : Log.Kept e l) (hfits : Log.Fits e l) : ∀ event ∈ l, event.Kept e := by
  intro event he
  obtain ⟨before, after, rfl⟩ := List.append_of_mem he
  exact h.after fun event he => hfits event (List.mem_append_left _ he)

end Log.Kept

namespace Log.Fits

variable {l l' : Log}

theorem left (h : Log.Fits e (l ++ l')) : Log.Fits e l :=
  fun event he => h event (List.mem_append_left l' he)

theorem right (h : Log.Fits e (l ++ l')) : Log.Fits e l' :=
  fun event he => h event (List.mem_append_right l he)

/-- If the log of an action fits, so does what happens inside it. -/
theorem inside {α : Type} {answers : Answers} {logs : RequestLogs} {x : Eval α} {m : Machine}
    (h : Log.Fits e (x.log answers logs m)) : Log.Fits e (x.inside answers logs m) :=
  fun event he => h event (List.mem_cons_of_mem _ (List.mem_append_left _ he))

theorem start {α : Type} {answers : Answers} {logs : RequestLogs} {x : Eval α} {m : Machine}
    (h : Log.Fits e (x.log answers logs m)) : (Event.start x m).Fits e :=
  h _ List.mem_cons_self

end Log.Fits

/-! ## 3. Runs -/

/-- A run does the same on a mirror, and keeps within reach, as far as the embedding fits. -/
structure Run.Mirrored (e : Embedding) {ε α : Type} [Carried ε] (P : α → Prop) (g : α → α)
    (r r' : EStateM.Result ε Machine α) (l : Log) : Prop where
  relates : l.Fits e → e.Relates P g r r'
  kept : l.Kept e

namespace Run.Mirrored

variable {ε δ α β : Type} [Carried ε] [Carried δ] {P : α → Prop} {g : α → α} {Q : β → Prop} {h : β → β}
  {r r' : EStateM.Result ε Machine α} {t t' : EStateM.Result δ Machine β} {l l' : Log}

/-- A run during which nothing happens. -/
theorem nil (hr : e.Relates P g r r') : Run.Mirrored e P g r r' [] :=
  ⟨fun _ => hr, trivial⟩

/-- What is made of the result of a run. -/
theorem map (hr : Run.Mirrored e P g r r' l) (ht : e.Relates P g r r' → e.Relates Q h t t') :
    Run.Mirrored e Q h t t' l :=
  ⟨fun hfits => ht (hr.relates hfits), hr.kept⟩

/-- A run goes on with what corresponds. -/
theorem append (hr : Run.Mirrored e P g r r' l) (ht : e.Relates P g r r' → Run.Mirrored e Q h t t' l') :
    Run.Mirrored e Q h t t' (l ++ l') :=
  ⟨fun hfits => (ht (hr.relates hfits.left)).relates hfits.right,
    hr.kept.append fun hfits => (ht (hr.relates hfits)).kept⟩

end Run.Mirrored

/-- Whether answers to requests do the same on mirrors, and are balanced. -/
structure Answers.Mirrored (e : Embedding) (answers : Answers) (logs : RequestLogs) : Prop where
  mirrored : ∀ (request : Request) (m m' : Machine), Within e request → e.Reflects m m' →
    Run.Mirrored e (Within e) (image e) (answers request m) (answers (image e request) m') (logs request m)
  balanced : ∀ (request : Request) (m : Machine), Balanced m (finalMachine (answers request m))

namespace Embedding.Reflects

variable {m m' : Machine}

theorem withRegisters (h : e.Reflects m m') {f f' : Registers → Registers} (hf : Within e (f m.toRegisters))
    (himage : f' (image e m.toRegisters) = image e (f m.toRegisters)) :
    e.Reflects (m.withRegisters f) (m'.withRegisters f') := by
  refine ⟨?_, h.limits, h.steps⟩
  have hregisters : f' m'.toRegisters = image e (f m.toRegisters) := by rw [h.state.registers, himage]
  have hstate := h.state.withRegisters hf
  rw [← hregisters] at hstate
  exact hstate

theorem enter (h : e.Reflects m m') {frame : Frame} (hframe : Within e frame) :
    e.Reflects (m.withRegisters frame.enter) (m'.withRegisters (image e frame).enter) := by
  obtain ⟨hscope, hreceiver, hresult, htarget, hjoining⟩ := h.state.within_registers
  cases frame with
  | scope id => exact h.withRegisters ⟨hframe, hreceiver, hresult, htarget, hjoining⟩ rfl
  | receiver id this => exact h.withRegisters ⟨hframe.1, hframe.2, hresult, htarget, hjoining⟩ rfl
  | target t => exact h.withRegisters ⟨hscope, hreceiver, hresult, hframe, hjoining⟩ rfl
  | program id this => exact h.withRegisters ⟨hframe.1, hframe.2, trivial, htarget, hjoining⟩ rfl
  | joining id =>
    exact h.withRegisters ⟨hscope, hreceiver, hresult, htarget, within_cons.mpr ⟨hframe, hjoining⟩⟩ rfl

theorem leave {m₁ m₁' : Machine} (h : e.Reflects m m') (frame : Frame) (h₁ : e.Reflects m₁ m₁') :
    e.Reflects (m₁.withRegisters (frame.leave m.toRegisters))
      (m₁'.withRegisters ((image e frame).leave m'.toRegisters)) := by
  obtain ⟨hscope, hreceiver, hresult, htarget, hjoining⟩ := h.state.within_registers
  obtain ⟨hscope₁, hreceiver₁, hresult₁, htarget₁, hjoining₁⟩ := h₁.state.within_registers
  rw [h.state.registers]
  cases frame with
  | scope id => exact h₁.withRegisters ⟨hscope, hreceiver₁, hresult₁, htarget₁, hjoining₁⟩ rfl
  | receiver id this => exact h₁.withRegisters ⟨hscope, hreceiver, hresult₁, htarget₁, hjoining₁⟩ rfl
  | target t => exact h₁.withRegisters ⟨hscope₁, hreceiver₁, hresult₁, htarget, hjoining₁⟩ rfl
  | program id this => exact h₁.withRegisters ⟨hscope, hreceiver, hresult, htarget₁, hjoining₁⟩ rfl
  | joining id => exact h₁.withRegisters ⟨hscope₁, hreceiver₁, hresult₁, htarget₁, hjoining⟩ rfl

theorem enterCall (h : e.Reflects m m') (name : String) :
    e.Reflects (m.withRegisters (Registers.enterCall name)) (m'.withRegisters (Registers.enterCall name)) :=
  h.withRegisters h.state.within_registers rfl

theorem leaveCall (h : e.Reflects m m') :
    e.Reflects (m.withRegisters Registers.leaveCall) (m'.withRegisters Registers.leaveCall) :=
  h.withRegisters h.state.within_registers rfl

theorem admitsCall (h : e.Reflects m m') : m'.admitsCall = m.admitsCall := by
  unfold Machine.admitsCall
  rw [h.state.depth, h.state.rules]
  rfl

end Embedding.Reflects

section

variable {α σ : Type} {P : α → Prop} {g : α → α} {answers : Answers} {logs : RequestLogs} {m m' : Machine}

/-- An action does the same on a mirror if what happens inside it does. -/
theorem Run.mirrored_log {x : Eval α} {r' : EStateM.Result Stop Machine α} (hm : e.Reflects m m')
    (hstart : x.MayStart e) (hgive : ∀ a, P a → x.MayGive e a)
    (hinside : (Event.start x m).Fits e → Run.Mirrored e P g (x.run answers m) r' (x.inside answers logs m)) :
    Run.Mirrored e P g (x.run answers m) r' (x.log answers logs m) := by
  have hend (hrelates : e.Relates P g (x.run answers m) r') : (Event.finish x (x.run answers m)).Kept e := by
    have hallowed : x.MayEnd e (x.run answers m) := by
      generalize x.run answers m = r at hrelates
      cases hrelates with
      | ok ha hm => exact hgive _ ha
      | error hs hm => exact hs
    exact ⟨⟨_, hrelates.final⟩, hallowed⟩
  refine ⟨fun hfits => (hinside hfits.start).relates hfits.inside, ⟨⟨m', hm⟩, hstart⟩, fun hfits => ?_⟩
  exact (hinside hfits).kept.append fun hin => ⟨hend ((hinside hfits).relates hin), fun _ => trivial⟩

theorem Frame.Solid.enter {frame : Frame} {here : Bool} (h : frame.Solid e here) {r : Registers}
    (hr : here = true → e.Solid r.scope) : e.Solid (frame.enter r).scope := by
  cases frame with
  | scope | receiver | program => exact h
  | target | joining => exact hr h

/-- A result may be looked at on another machine. -/
theorem Embedding.Relates.onMachine {r r' : EStateM.Result Stop Machine α} (h : e.Relates P g r r')
    {f f' : Machine → Machine} (hf : ∀ m m', e.Reflects m m' → e.Reflects (f m) (f' m')) :
    e.Relates P g (GuestScript.onMachine f r) (GuestScript.onMachine f' r') := by
  cases h with
  | ok ha hm => exact .ok ha (hf _ _ hm)
  | error hs hm => exact .error hs (hf _ _ hm)

/-- What was thrown may be held. -/
theorem Embedding.Relates.settled {r r' : EStateM.Result Stop Machine α} (h : e.Relates P g r r') :
    e.Relates (settledSatisfies e P) (settledMap e g) (GuestScript.settled r) (GuestScript.settled r') := by
  cases h with
  | ok ha hm => exact .ok (a := Except.ok _) ha hm
  | error hs hm =>
    rename_i s m m'
    cases s with
    | thrown v => exact .ok (a := Except.error v) hs hm
    | interrupt i => exact .error (s := Stop.interrupt i) trivial hm
    | exhausted => exact .error (s := Stop.exhausted) trivial hm
    | panicked => exact .error (s := Stop.panicked) trivial hm

/-- Both machines count the same steps under the same limits. -/
theorem Embedding.Reflects.charged (hm : e.Reflects m m') :
    e.Relates (fun _ => True) id m.charged m'.charged := by
  unfold Machine.charged
  rw [hm.limits, hm.steps]
  split
  · exact .error (s := Stop.interrupt _) trivial hm
  · have hcounted : e.Reflects { m with steps := m.steps + 1 }
        { m' with limits := m.limits, steps := m.steps + 1 } := ⟨hm.state, rfl, rfl⟩
    dsimp only
    split
    · exact .error (s := Stop.interrupt _) trivial hcounted
    · exact .ok trivial hcounted

/-- The rounds of a loop do the same on mirrors if each round does. Both loops may go equally far, as they count the
same steps under the same limits. -/
theorem Run.mirrored_rounds {S : σ → Prop} {k : σ → σ} {here : Bool} {round round' : σ → Run (Flow σ α)}
    {log : σ → Machine → Log} (hbalanced : ∀ s m, Balanced m (finalMachine (round s m)))
    (h : ∀ s m m', S s → e.Reflects m m' → (here = true → e.Solid m.scope) →
      Run.Mirrored e (Flow.Satisfies S P) (Flow.map k g) (round s m) (round' (k s) m') (log s m)) :
    ∀ (fuel : Nat) {s : σ} {m m' : Machine}, S s → e.Reflects m m' → (here = true → e.Solid m.scope) →
      Run.Mirrored e P g (Run.rounds round fuel s m) (Run.rounds round' fuel (k s) m')
        (Run.roundsLog round log fuel s m)
  | 0, _, _, _, _, hm, _ => .nil (.error (s := Stop.exhausted) trivial hm)
  | fuel + 1, s, m, m', hs, hm, hhere => by
    have hscope := (hbalanced s m).scope
    unfold Run.rounds Run.roundsLog
    refine (h s m m' hs hm hhere).append fun hrelates => ?_
    generalize round' (k s) m' = r' at hrelates
    cases hr : round s m with
    | error stop m₁ =>
      rw [hr] at hrelates
      cases hrelates with
      | error hstop hm₁ => exact .nil (.error hstop hm₁)
    | ok flow m₁ =>
      rw [hr] at hrelates hscope
      cases hrelates with
      | ok hflow hm₁ =>
        cases flow with
        | leave a => exact .nil (.ok hflow hm₁)
        | proceed s₁ =>
          dsimp only [Flow.map]
          rw [hm.steps, hm₁.steps]
          by_cases hcount : m.steps < m₁.steps
          · rw [if_pos hcount, if_pos hcount, if_pos hcount]
            exact mirrored_rounds hbalanced h fuel hflow hm₁ fun hh => hscope ▸ hhere hh
          · rw [if_neg hcount, if_neg hcount, if_neg hcount]
            exact .nil (.error (s := Stop.exhausted) trivial hm₁)

/-- **An action that follows another one does the same on a mirror**, as far as the embedding fits. -/
theorem Eval.FollowsAs.mirrored {here : Bool} (hask : answers.Mirrored e logs) {x x' : Eval α}
    (h : x.FollowsAs e here P g x') (hm : e.Reflects m m') (hhere : here = true → e.Solid m.scope) :
    Run.Mirrored e P g (x.run answers m) (x'.run answers m') (x.log answers logs m) := by
  induction h generalizing m m' with
  | done ha => exact Run.mirrored_log hm trivial (fun _ _ => trivial) fun _ => .nil (.ok ha hm)
  | stop hs => exact Run.mirrored_log hm trivial (fun _ _ => trivial) fun _ => .nil (.error hs hm)
  | current =>
    have hrelates : e.Relates (ε := Stop) e.Solid e.scope (.ok m.scope m) (.ok m'.scope m') := by
      rw [hm.state.current_scope]
      exact .ok (hhere rfl) hm
    exact Run.mirrored_log hm trivial (fun _ _ => trivial) fun _ => .nil hrelates
  | anywhere hx ih => exact ih hm nofun
  | read hf =>
    rename_i here α P g f f'
    obtain ⟨ha, heq⟩ := hf m.toState m'.toState hm.state
    have hrelates : e.Relates (ε := Stop) P g (.ok (f m.toState) m) (.ok (f' m'.toState) m') := by
      rw [heq]
      exact .ok ha hm
    exact Run.mirrored_log hm trivial (fun _ _ => trivial) fun _ => .nil hrelates
  | update hu =>
    rename_i here α P g u u'
    refine Run.mirrored_log hm ⟨P, g, u', hu⟩ (fun _ _ => trivial) fun hfits => .nil ?_
    obtain ⟨ha, heq, hstate⟩ := hu.keeps hm.state hfits
    have hresult : m'.updated u' = .ok (g (u.apply m.toState).1) ⟨(u'.apply m'.toState).2, m'.limits, m'.steps⟩ :=
      congrArg (EStateM.Result.ok · _) heq
    change e.Relates P g (m.updated u) (m'.updated u')
    rw [hresult]
    exact .ok ha ⟨hstate, hm.limits, hm.steps⟩
  | charge => exact Run.mirrored_log hm trivial (fun _ _ => trivial) fun _ => .nil hm.charged
  | counted =>
    have hrelates : e.Relates (ε := Stop) (fun _ => True) id (.ok m.steps m) (.ok m'.steps m') := by
      rw [hm.steps]
      exact .ok trivial hm
    exact Run.mirrored_log hm trivial (fun _ _ => trivial) fun _ => .nil hrelates
  | clock =>
    have hrelates : e.Relates (ε := Stop) (fun _ => True) id (.ok (m.limits.clockStart + m.steps / max m.limits.pace 1) m)
        (.ok (m'.limits.clockStart + m'.steps / max m'.limits.pace 1) m') := by
      rw [hm.limits, hm.steps]
      exact .ok trivial hm
    exact Run.mirrored_log hm trivial (fun _ _ => trivial) fun _ => .nil hrelates
  | andThen hx hf ihx ihf =>
    rename_i here α β P g Q h x x' f f'
    refine Run.mirrored_log hm trivial (fun _ _ => trivial) fun _ => ?_
    have hscope := (Eval.run_balanced hask.balanced x m).scope
    rw [Eval.inside_andThen]
    refine (ihx hm hhere).append fun hrelates => ?_
    simp only [Eval.run]
    generalize x'.run answers m' = r' at hrelates
    cases hr : x.run answers m with
    | error s m₁ =>
      rw [hr] at hrelates
      cases hrelates with
      | error hs hm₁ => exact .nil (.error hs hm₁)
    | ok a m₁ =>
      rw [hr] at hrelates hscope
      cases hrelates with
      | ok ha hm₁ => exact ihf a ha hm₁ fun hh => hscope ▸ hhere hh
  | settle hx ih =>
    refine Run.mirrored_log hm trivial (fun _ _ => trivial) fun _ => ?_
    rw [Eval.run_settle, Eval.run_settle]
    exact (ih hm hhere).map Embedding.Relates.settled
  | within hframe hinner hx ih =>
    refine Run.mirrored_log hm trivial (fun _ _ => trivial) fun _ => ?_
    simp only [Eval.run, Run.between_eq]
    refine (ih (hm.enter hframe) fun h => (hinner h).enter hhere).map fun hrelates => ?_
    exact hrelates.onMachine fun m₁ m₁' hm₁ => hm.leave _ hm₁
  | nest hx hr ihx ihr =>
    rename_i here α P g name x x' refused refused'
    refine Run.mirrored_log hm trivial (fun _ _ => trivial) fun _ => ?_
    rw [Eval.inside_nest]
    simp only [Eval.run, hm.admitsCall]
    by_cases hadmits : m.admitsCall = true
    · rw [if_pos hadmits, if_pos hadmits, if_pos hadmits, Run.between_eq, Run.between_eq]
      refine (ihx (hm.enterCall name) hhere).map fun hrelates => ?_
      exact hrelates.onMachine fun m₁ m₁' hm₁ => hm₁.leaveCall
    · rw [if_neg hadmits, if_neg hadmits, if_neg hadmits]
      exact ihr hm hhere
  | loop hround hcounts hstart ih =>
    rename_i here σ α S k P g round round' start
    refine Run.mirrored_log hm trivial (fun _ _ => trivial) fun _ => ?_
    rw [Eval.inside_loop]
    simp only [Eval.run, hm.limits]
    exact Run.mirrored_rounds (fun s m => Eval.run_balanced hask.balanced (round s) m)
      (fun s m m' hs hm hhere => ih s hs hm hhere) _ hstart hm hhere
  | ask hr => exact Run.mirrored_log hm hr (fun _ hv => hv) fun _ => hask.mirrored _ m m' hr hm

end

/-- The same, whatever the current scope is. -/
theorem Eval.Follows.mirrored {α : Type} {P : α → Prop} {g : α → α} {answers : Answers} {logs : RequestLogs}
    {m m' : Machine} (hask : answers.Mirrored e logs) {x x' : Eval α} (h : x.Follows e P g x')
    (hm : e.Reflects m m') :
    Run.Mirrored e P g (x.run answers m) (x'.run answers m') (x.log answers logs m) :=
  FollowsAs.mirrored hask h hm nofun

/-- The answers to requests do the same on mirrors, however deep requests are nested. -/
theorem Eval.answers_mirrored (e : Embedding) : ∀ n : Nat, (answers n).Mirrored e (logs n)
  | 0 => ⟨fun _ _ _ _ hm => .nil (.error (s := Stop.exhausted) trivial hm), answers_balanced 0⟩
  | n + 1 => ⟨fun _ _ _ hrequest hm => (tracks_serve hrequest).mirrored (answers_mirrored e n) hm,
    answers_balanced (n + 1)⟩

end GuestScript
