import GuestScript.Proofs.Reach.Constant

/-!
# Bounded runs

Every loop of a script counts a step in each round, so no loop goes on for longer than the step limit allows: the bound
that makes loops total is never reached. That is not so for what works on data without counting, such as the walk along
the prototypes of an object or the flattening of an array, and for built-in functions that reach each other. Their
nesting has a bound of its own in place of the memory of a real machine.

So a host call ends with a value, an uncaught throw, an interrupt or a source that is refused, unless nesting ran out
(`HostCall.bounded`): then a walk through data went past its bound or past the end of a list, where the host panics, or
that many requests were nested in each other.
-/

namespace GuestScript

/-- Whether the host gives up: nesting ran out, or an index was used outside of a list. -/
def Stop.GivesUp : Stop → Prop
  | exhausted | panicked => True
  | thrown _ | interrupt _ => False

/-! ## 1. Nesting in logs -/

namespace Log

/-- Whether a log has a number of requests within each other. -/
def Nests : Nat → Log → Prop
  | 0, _ => True
  | n + 1, l => ∃ before request m inner r after,
      l = before ++ .start (.ask request) m :: (inner ++ .finish (.ask request) r :: after) ∧ Nests n inner

/-- Whether a walk through data was given up because it went too deep or past the end of a list. -/
def GivesUp (l : Log) : Prop :=
  ∃ s : Stop, s.GivesUp ∧ ∃ (α : Type) (r : EStateM.Result Stop Machine α), Event.finish (.stop s) r ∈ l

/-- Whether nesting ran out: a walk through data was given up, or more requests were nested than may be. -/
def RunsOut (n : Nat) (l : Log) : Prop :=
  l.GivesUp ∨ l.Nests (n + 1)

variable {n : Nat} {l : Log}

theorem Nests.append (h : l.Nests n) (before after : Log) : Nests n (before ++ (l ++ after)) := by
  cases n with
  | zero => trivial
  | succ n =>
    obtain ⟨before', request, m, inner, r, after', rfl, hinner⟩ := h
    exact ⟨before ++ before', request, m, inner, r, after' ++ after, by simp, hinner⟩

theorem RunsOut.append (h : l.RunsOut n) (before after : Log) : RunsOut n (before ++ (l ++ after)) := by
  refine h.imp ?_ (·.append before after)
  rintro ⟨s, hs, α, r, hr⟩
  exact ⟨s, hs, α, r, List.mem_append_right _ (List.mem_append_left _ hr)⟩

theorem RunsOut.left (h : l.RunsOut n) (after : Log) : RunsOut n (l ++ after) :=
  h.append [] after

theorem RunsOut.right (h : l.RunsOut n) (before : Log) : RunsOut n (before ++ l) := by
  have happend := h.append before []
  rwa [List.append_nil] at happend

end Log

/-! ## 2. Runs that are given up -/

/-- Whether nesting ran out whenever a run stops in a way. -/
def Run.Blames {α : Type} (how : Stop) (n : Nat) (r : EStateM.Result Stop Machine α) (l : Log) : Prop :=
  ∀ m, r = .error how m → l.RunsOut n

/-- Whether nesting ran out whenever the answer to a request stops in a way. -/
def Answers.Blames (how : Stop) (n : Nat) (answers : Answers) (logs : RequestLogs) (e : Embedding) : Prop :=
  ∀ (request : Request) (m m' : Machine), Within e request → e.Reflects m m' → (logs request m).Fits e →
    ∀ m₁, answers request m = .error how m₁ → (logs request m).GivesUp ∨ (logs request m).Nests n

section

variable {e : Embedding} {α σ : Type} {P : α → Prop} {g : α → α} {answers : Answers} {logs : RequestLogs} {n : Nat}
  {m m' : Machine} {how : Stop}

theorem Eval.blames_log {x : Eval α} (h : Run.Blames how n (x.run answers m) (x.inside answers logs m)) :
    Run.Blames how n (x.run answers m) (x.log answers logs m) := by
  intro m₁ hr
  exact (h m₁ hr).append [_] [_]

/-- The bound on the rounds of a loop is not what stops it: each round counts a step, and there are no more steps than
the limit. -/
theorem Run.blames_rounds {S : σ → Prop} (k : σ → σ) {here : Bool} {round : σ → Run (Flow σ α)}
    (round' : σ → Run (Flow σ α)) {log : σ → Machine → Log} (hbalanced : ∀ s m, Balanced m (finalMachine (round s m)))
    (hround : ∀ s m m', S s → e.Reflects m m' → (here = true → e.Solid m.scope) → (log s m).Fits e →
      e.Relates (Flow.Satisfies S P) (Flow.map k g) (round s m) (round' (k s) m') ∧
        Run.Blames how n (round s m) (log s m) ∧ Counted m (round s m) ∧
          ∀ flow m₁, round s m = .ok flow m₁ → flow.Proceeds → m.steps < m₁.steps) :
    ∀ (fuel : Nat) {s : σ} {m m' : Machine}, S s → e.Reflects m m' → (here = true → e.Solid m.scope) →
      (Run.roundsLog round log fuel s m).Fits e → max m.limits.maxSteps m.steps < fuel + m.steps →
        Run.Blames how n (Run.rounds round fuel s m) (Run.roundsLog round log fuel s m)
  | 0, _, m, _, _, _, _, _, hfuel => by
    have := Nat.le_max_right m.limits.maxSteps m.steps
    omega
  | fuel + 1, s, m, m', hs, hm, hhere, hfits, hfuel => by
    obtain ⟨hrelates, hblames, hcounted, hcounts⟩ := hround s m m' hs hm hhere hfits.left
    have hscope := (hbalanced s m).scope
    have hrest := hfits.right
    intro m₂ hr₂
    unfold Run.rounds at hr₂
    unfold Run.roundsLog
    cases hr : round s m with
    | error stop m₁ =>
      rw [hr] at hblames hr₂
      cases hr₂
      exact (hblames m₂ rfl).left _
    | ok flow m₁ =>
      rw [hr] at hrelates hcounted hscope
      cases flow with
      | leave a =>
        simp only [hr] at hr₂
        cases hr₂
      | proceed s₁ =>
        have hlt : m.steps < m₁.steps := hcounts _ _ hr trivial
        have hlimits : m₁.limits = m.limits := hcounted.limits
        have hle : m₁.steps ≤ m.limits.maxSteps := hcounted.inside rfl hlt
        simp only [hr, if_pos hlt] at hr₂ hrest ⊢
        generalize round' (k s) m' = r' at hrelates
        cases hrelates with
        | ok hflow hm₁ =>
          have hhere₁ (hh : here = true) : e.Solid m₁.scope := hscope ▸ hhere hh
          refine (blames_rounds k round' hbalanced hround fuel hflow hm₁ hhere₁ hrest ?_ m₂ hr₂).right _
          rw [hlimits]
          omega

/-- **An action that follows another one is given up only when nesting runs out.** -/
theorem Eval.FollowsAs.blames {here : Bool} (hgive : how.GivesUp) (hcounted : ∀ request m, Counted m (answers request m))
    (hmirrored : answers.Mirrored e logs) (hask : answers.Blames how n logs e) {x x' : Eval α}
    (h : x.FollowsAs e here P g x') (hm : e.Reflects m m') (hhere : here = true → e.Solid m.scope)
    (hfits : (x.log answers logs m).Fits e) :
    Run.Blames how n (x.run answers m) (x.log answers logs m) := by
  induction h generalizing m m' with
  | done | read | current | update | counted | clock => exact fun _ hr => nomatch hr
  | anywhere hx ih => exact ih hm nofun hfits
  | stop hs =>
    rename_i s
    intro m₁ hr
    cases hr
    exact .inl ⟨_, hgive, _, _, List.mem_cons_of_mem _ (List.mem_singleton_self _)⟩
  | charge =>
    intro m₁ hr
    change m.charged = _ at hr
    unfold Machine.charged at hr
    split at hr
    · cases hr
      exact hgive.elim
    · dsimp only at hr
      split at hr
      · cases hr
        exact hgive.elim
      · cases hr
  | andThen hx hf ihx ihf =>
    rename_i here α β P g Q h x x' f f'
    refine blames_log ?_
    have hinside := hfits.inside
    rw [Eval.inside_andThen] at hinside
    have hrelates := (hx.mirrored hmirrored hm hhere).relates hinside.left
    have hblames := ihx hm hhere hinside.left
    have hscope := (Eval.run_balanced hmirrored.balanced x m).scope
    have hrest := hinside.right
    rw [Eval.inside_andThen]
    intro m₂ hr₂
    simp only [Eval.run] at hr₂
    cases hr : x.run answers m with
    | error s m₁ =>
      rw [hr] at hblames hr₂
      exact (hblames m₂ (by simpa using hr₂)).left _
    | ok a m₁ =>
      rw [hr] at hrelates
      simp only [hr] at hr₂ hrest hscope ⊢
      generalize x'.run answers m' = r' at hrelates
      cases hrelates with
      | ok ha hm₁ => exact (ihf a ha hm₁ (fun hh => hscope ▸ hhere hh) hrest m₂ hr₂).right _
  | settle hx ih =>
    refine blames_log fun m₁ hr₁ => ih hm hhere hfits.inside m₁ ?_
    rw [Eval.run_settle] at hr₁
    rename_i x x'
    cases hr : x.run answers m with
    | ok a m₂ =>
      rw [hr] at hr₁
      cases hr₁
    | error s m₂ =>
      rw [hr] at hr₁
      cases s with
      | thrown v => cases hr₁
      | interrupt | exhausted | panicked =>
        cases hr₁
        rfl
  | within hframe hinner hx ih =>
    rename_i frame x x'
    refine blames_log fun m₁ hr₁ => ?_
    simp only [Eval.run, Run.between_eq] at hr₁
    cases hr : x.run answers (m.withRegisters frame.enter) with
    | ok a m₂ =>
      rw [hr] at hr₁
      cases hr₁
    | error s m₂ =>
      rw [hr] at hr₁
      cases hr₁
      exact ih (hm.enter hframe) (fun h => (hinner h).enter hhere) hfits.inside m₂ hr
  | nest hx hr ihx ihr =>
    rename_i name x x' refused refused'
    refine blames_log fun m₁ hr₁ => ?_
    have hinside := hfits.inside
    rw [Eval.inside_nest] at hinside ⊢
    simp only [Eval.run] at hr₁
    by_cases hadmits : m.admitsCall = true
    · rw [if_pos hadmits] at hinside hr₁ ⊢
      rw [Run.between_eq] at hr₁
      cases hr : x.run answers (m.withRegisters (Registers.enterCall name)) with
      | ok a m₂ =>
        rw [hr] at hr₁
        cases hr₁
      | error s m₂ =>
        rw [hr] at hr₁
        cases hr₁
        exact ihx (hm.enterCall name) hhere hinside m₂ hr
    · rw [if_neg hadmits] at hinside hr₁ ⊢
      exact ihr hm hhere hinside m₁ hr₁
  | loop hround hcounts hstart ih =>
    rename_i here σ α S k P g round round' start
    refine blames_log ?_
    have hinside := hfits.inside
    rw [Eval.inside_loop] at hinside ⊢
    have hrounds (s : σ) (m m' : Machine) (hs : S s) (hm : e.Reflects m m') (hhere : here = true → e.Solid m.scope)
        (hfits : ((round s).log answers logs m).Fits e) :
        e.Relates (Flow.Satisfies S P) (Flow.map k g) ((round s).run answers m) ((round' (k s)).run answers m') ∧
          Run.Blames how n ((round s).run answers m) ((round s).log answers logs m) ∧
          Counted m ((round s).run answers m) ∧
          ∀ flow m₁, (round s).run answers m = .ok flow m₁ → flow.Proceeds → m.steps < m₁.steps :=
      ⟨((hround s hs).mirrored hmirrored hm hhere).relates hfits, ih s hs hm hhere hfits, (round s).run_counted hcounted m,
        fun flow m₁ hr => hcounts s hs answers hcounted m m₁ flow hr⟩
    exact Run.blames_rounds k (fun s => (round' s).run answers)
      (fun s m => Eval.run_balanced hmirrored.balanced (round s) m) hrounds _ hstart hm hhere hinside (by omega)
  | ask hrequest =>
    rename_i request
    intro m₁ hr₁
    rcases hask request m m' hrequest hm hfits.inside m₁ hr₁ with ⟨s, hs, α, r, hr⟩ | hnests
    · exact .inl ⟨s, hs, α, r, List.mem_cons_of_mem _ (List.mem_append_left _ hr)⟩
    · exact .inr ⟨[], request, m, logs request m, _, [], rfl, hnests⟩

end

/-- Nesting ran out whenever the answer to a request is given up, however deep requests may be nested. -/
theorem Eval.answers_blame {how : Stop} (h : how.GivesUp) (e : Embedding) : ∀ n : Nat,
    (answers n).Blames how n (logs n) e
  | 0 => fun _ _ _ _ _ _ _ _ => .inr trivial
  | n + 1 => fun _ _ _ hrequest hm hfits =>
    (tracks_serve hrequest).blames h (answers_counted n) (answers_mirrored e n) (answers_blame h e n) hm nofun hfits

/-! ## 3. Steps of a log -/

/-- Whether a step is counted. -/
def Event.isCharge : Event → Bool
  | .start .charge _ => true
  | _ => false

/-- How many steps are counted. -/
def Log.charges (l : Log) : Nat :=
  l.countP Event.isCharge

theorem Log.charges_append (l k : Log) : (l ++ k).charges = l.charges + k.charges :=
  List.countP_append ..

/-- What the steps of a log have to do with the machine that counts them: each of them raises the count, but for the one
that the run is interrupted at. -/
structure Tallied {α : Type} (m : Machine) (r : EStateM.Result Stop Machine α) (l : Log) : Prop where
  reached : interruptOf r = none → l.charges + m.steps ≤ (finalMachine r).steps
  limited : l.charges + m.steps ≤ max m.limits.maxSteps m.steps + 1

namespace Tallied

variable {α β : Type} {m : Machine} {l k : Log} {r : EStateM.Result Stop Machine α}
  {r' : EStateM.Result Stop Machine β}

/-- A run that counts nothing. -/
theorem of_eq (hl : l.charges = 0) (hsteps : (finalMachine r).steps = m.steps) : Tallied m r l :=
  ⟨fun _ => by omega, by omega⟩

/-- Runs one after the other. -/
theorem trans (h : Tallied m r l) (hcounted : Counted m r) (hr : interruptOf r = none)
    (h' : Tallied (finalMachine r) r' k) :
    Tallied m r' (l ++ k) := by
  have hreached := h.reached hr
  have hmore := hcounted.inside hr
  have hlimited := h'.limited
  rw [hcounted.limits] at hlimited
  refine ⟨fun hnone => ?_, ?_⟩
  · have := h'.reached hnone
    rw [Log.charges_append]
    omega
  · rw [Log.charges_append]
    omega

/-- A run that ends in the same way on the same machine, as far as the count can tell. -/
theorem congr {m' : Machine} (h : Tallied m' r l) (hm : m'.limits = m.limits ∧ m'.steps = m.steps)
    (hfinal : (finalMachine r').steps = (finalMachine r).steps) (hinterrupt : interruptOf r' = interruptOf r) :
    Tallied m r' l := by
  obtain ⟨hreached, hlimited⟩ := h
  rw [hm.2, hm.1] at hlimited
  rw [hm.2, ← hfinal, ← hinterrupt] at hreached
  exact ⟨hreached, hlimited⟩

end Tallied

/-- The rounds of a loop are tallied as each round is. -/
theorem Run.rounds_tallied {σ α : Type} {round : σ → Run (Flow σ α)} {log : σ → Machine → Log}
    (hcounted : ∀ s m, Counted m (round s m)) (h : ∀ s m, Tallied m (round s m) (log s m)) :
    ∀ (fuel : Nat) (s : σ) (m : Machine), Tallied m (Run.rounds round fuel s m) (Run.roundsLog round log fuel s m)
  | 0, _, _ => .of_eq rfl rfl
  | fuel + 1, s, m => by
    have hfirst := hcounted s m
    have hround := h s m
    unfold Run.rounds Run.roundsLog
    cases hr : round s m with
    | error e m' =>
      rw [hr] at hround
      dsimp only
      rw [List.append_nil]
      exact hround.congr ⟨rfl, rfl⟩ rfl rfl
    | ok flow m' =>
      rw [hr] at hfirst hround
      cases flow with
      | leave a =>
        dsimp only
        rw [List.append_nil]
        exact hround.congr ⟨rfl, rfl⟩ rfl rfl
      | proceed s' =>
        dsimp only
        split
        · exact hround.trans hfirst rfl (rounds_tallied hcounted h fuel s' m')
        · rw [List.append_nil]
          exact hround.congr ⟨rfl, rfl⟩ rfl rfl

namespace Eval

variable {α : Type} {answers : Answers} {logs : RequestLogs}

/-- A step that is not counted is an interrupt. -/
theorem interrupted_of_charged {m m' : Machine} {s : Stop} (hr : charge.run answers m = .error s m') :
    ∃ i, s = .interrupt i := by
  change m.charged = .error s m' at hr
  unfold Machine.charged at hr
  split at hr
  · cases hr
    exact ⟨_, rfl⟩
  · dsimp only at hr
    split at hr <;> cases hr
    exact ⟨_, rfl⟩

theorem tallied_log {x : Eval α} {m : Machine} (hx : (Event.start x m).isCharge = false)
    (h : Tallied m (x.run answers m) (x.inside answers logs m)) :
    Tallied m (x.run answers m) (x.log answers logs m) := by
  have hcharges : (x.log answers logs m).charges = (x.inside answers logs m).charges := by
    rw [log_eq, Log.charges, List.countP_cons_of_neg (by simp [hx]), ← Log.charges, Log.charges_append]
    rfl
  obtain ⟨hreached, hlimited⟩ := h
  rw [← hcharges] at hreached hlimited
  exact ⟨hreached, hlimited⟩

/-- **The steps of every action are tallied**, if those of the answers to its requests are. -/
theorem log_tallied (hcounted : ∀ request m, Counted m (answers request m))
    (hask : ∀ request m, Tallied m (answers request m) (logs request m)) (x : Eval α) (m : Machine) :
    Tallied m (x.run answers m) (x.log answers logs m) := by
  induction x generalizing m with
  | done | stop | read | counted | clock | update => exact .of_eq rfl rfl
  | charge =>
    have hcharges : (charge.log answers logs m).charges = 1 := rfl
    refine ⟨fun hnone => ?_, by omega⟩
    rw [hcharges]
    cases hr : charge.run answers m with
    | error s m' =>
      obtain ⟨i, hi⟩ := interrupted_of_charged hr
      subst hi
      rw [hr] at hnone
      cases hnone
    | ok a m' =>
      have := counts_charge (P := fun _ => True) answers hcounted m m' a hr trivial
      change 1 + m.steps ≤ m'.steps
      omega
  | andThen x f ihx ihf =>
    refine tallied_log rfl ?_
    have hx := ihx m
    have hfirst := x.run_counted hcounted m
    rw [inside_andThen]
    simp only [run]
    cases hr : x.run answers m with
    | error e m' =>
      rw [hr] at hx
      dsimp only
      rw [List.append_nil]
      exact hx.congr ⟨rfl, rfl⟩ rfl rfl
    | ok a m' =>
      rw [hr] at hx hfirst
      exact hx.trans hfirst rfl (ihf a m')
  | settle x ih =>
    refine tallied_log rfl ?_
    rw [run_settle]
    exact (ih m).congr ⟨rfl, rfl⟩ (by rw [finalMachine_settled]) (interruptOf_settled _)
  | within frame x ih =>
    refine tallied_log rfl ?_
    simp only [run, Run.between_eq]
    exact (ih (m.withRegisters frame.enter)).congr ⟨rfl, rfl⟩ (by rw [finalMachine_onMachine]; rfl)
      (interruptOf_onMachine _ _)
  | nest name x refused ihx ihr =>
    refine tallied_log rfl ?_
    rw [inside_nest]
    simp only [run]
    split
    · rw [Run.between_eq]
      exact (ihx (m.withRegisters (Registers.enterCall name))).congr ⟨rfl, rfl⟩ (by rw [finalMachine_onMachine]; rfl)
        (interruptOf_onMachine _ _)
    · exact ihr m
  | loop round start ih =>
    exact tallied_log rfl (Run.rounds_tallied (fun s => (round s).run_counted hcounted) ih _ start m)
  | ask request => exact tallied_log rfl (hask request m)

/-- The steps of the answers to requests are tallied, however deep requests may be nested. -/
theorem logs_tallied : ∀ (n : Nat) (request : Request) (m : Machine),
    Tallied m (Eval.answers n request m) (Eval.logs n request m)
  | 0, _, _ => .of_eq rfl rfl
  | n + 1, request, m => log_tallied (answers_counted n) (logs_tallied n) (serve request) m

theorem logOn_tallied (x : Eval α) (m : Machine) : Tallied m (x.runOn m) (x.logOn m) :=
  log_tallied (answers_counted nestingLimit) (logs_tallied nestingLimit) x m

end Eval

/-! ## 4. Host calls -/

namespace HostCall

open Session (restarted returned)

variable {e : Embedding} {m m' : Machine}

/-- The ways in which the run of a program may end. -/
def Ends : EStateM.Result Failure Machine Value → Prop
  | .ok _ _ => True
  | .error (.uncaught _ _) _ | .error (.interrupt _) _ | .error (.parse _) _ | .error (.config _) _ => True
  | .error .json _ | .error .exhausted _ | .error .panicked _ => False

theorem ends_treeOf {rules : Rules} {source : Source} {f : Failure} (h : rules.treeOf source = .error f) :
    Ends (.error f m) := by
  unfold Rules.treeOf at h
  split at h
  · cases h
  split at h
  · cases h
    trivial
  split at h
  · cases h
  · cases h
    trivial

theorem ends_surface (s : Stop) (m : Machine) : Ends (Session.surface s m) ∨ s.GivesUp := by
  cases s with
  | thrown | interrupt => exact .inl trivial
  | exhausted | panicked => exact .inr trivial

theorem ends_surfaced {r : EStateM.Result Stop Machine Value} {l : Log} {n : Nat}
    (h : ∀ how : Stop, how.GivesUp → Run.Blames how n r l) : Ends (surfaced r) ∨ l.RunsOut n := by
  cases r with
  | ok v m => exact .inl trivial
  | error s m => exact (ends_surface s m).imp_right fun hgive => h s hgive m rfl

/-- An action that a host runs is given up only when nesting runs out. -/
theorem blames_runOn {α : Type} {x x' : Eval α} {P : α → Prop} {g : α → α} (h : x.Follows e P g x')
    (hm : e.Reflects m m') (hfits : (x.logOn m).Fits e) (how : Stop) (hgive : how.GivesUp) :
    Run.Blames how nestingLimit (x.runOn m) (x.logOn m) :=
  h.blames hgive (Eval.answers_counted _) (Eval.answers_mirrored e _) (Eval.answers_blame hgive e _) hm nofun hfits

/-- A part of a host call, with the log of the part. -/
theorem ends_ofEval {x x' : Eval Value} {P : Value → Prop} {g : Value → Value} (h : x.Follows e P g x')
    (hm : e.Reflects m m') (hfits : (x.logOn m).Fits e) :
    Ends (Session.ofEval x m) ∨ (x.logOn m).RunsOut nestingLimit := by
  rw [Session.ofEval_eq]
  exact ends_surfaced (blames_runOn h hm hfits)

theorem ends_run {p : Program} (hp : p.Firm e.Sets) (hm : e.Reflects m m') (hfits : (runLog p m).Fits e) :
    Ends (Session.run p m) ∨ (runLog p m).RunsOut nestingLimit := by
  have hblames := blames_runOn (Eval.tracks_execute hp) hm.restarted hfits.left
  have hrelates :=
    ((Eval.tracks_execute hp).mirrored (Eval.answers_mirrored e nestingLimit) hm.restarted).relates hfits.left
  have hrest := hfits.right
  rw [run_eq]
  unfold runLog
  change e.Relates _ _ ((Eval.execute p).runOn (restarted m)) ((Eval.execute p).runOn (restarted m')) at hrelates
  generalize (Eval.execute p).runOn (restarted m') = r' at hrelates
  cases hr : (Eval.execute p).runOn (restarted m) with
  | error s m₁ =>
    rw [hr] at hblames
    dsimp only
    rw [List.append_nil]
    exact (ends_surface s _).imp_right fun hgive => hblames s hgive m₁ rfl
  | ok v m₁ =>
    rw [hr] at hrelates
    simp only [hr] at hrest
    cases hrelates with
    | ok hv hm₁ => exact (ends_ofEval (Eval.tracks_hideGlobal hv) hm₁.returned hrest).imp_right (·.right _)

/-- **A host call ends, unless nesting runs out.** -/
theorem ends (c : HostCall) (hc : Within e c) (hm : e.Reflects m m') (hfits : (c.log m).Fits e) :
    Ends (c.perform m) ∨ (c.log m).RunsOut nestingLimit := by
  cases c with
  | reset bindings options =>
    have hblames := blames_runOn (Eval.follows_openScopes hc.1 hc.2.1) hm hfits
    rw [reset_eq, Session.ofEval_eq]
    cases hr : (Eval.openScopes bindings options.rootContext).runOn m with
    | ok opened m₁ => exact .inl trivial
    | error s m₁ =>
      rw [hr] at hblames
      cases s with
      | thrown | interrupt => exact .inl trivial
      | exhausted => exact .inr (hblames .exhausted trivial m₁ rfl)
      | panicked => exact .inr (hblames .panicked trivial m₁ rfl)
  | evaluate source =>
    rw [evaluate_eq]
    simp only [Session.parse, log] at hfits ⊢
    cases hparsed : m.rules.treeOf source with
    | error f => exact .inl (ends_treeOf hparsed)
    | ok parsed =>
      simp only [hparsed, Session.ofEval_eq] at hfits ⊢
      have hcompile := Eval.tracks_compileTree (e := e) parsed.1 parsed.2
      have hblames := blames_runOn hcompile hm hfits.left
      have hrelates := (hcompile.mirrored (Eval.answers_mirrored e nestingLimit) hm).relates hfits.left
      change e.Relates _ _ ((Eval.compileTree parsed.1 parsed.2).runOn m)
        ((Eval.compileTree parsed.1 parsed.2).runOn m') at hrelates
      have hrest := hfits.right
      generalize (Eval.compileTree parsed.1 parsed.2).runOn m' = r' at hrelates
      cases hr : (Eval.compileTree parsed.1 parsed.2).runOn m with
      | error s m₁ =>
        rw [hr] at hblames
        dsimp only
        rw [List.append_nil]
        cases s with
        | thrown | interrupt => exact .inl trivial
        | exhausted => exact .inr (hblames .exhausted trivial m₁ rfl)
        | panicked => exact .inr (hblames .panicked trivial m₁ rfl)
      | ok p m₁ =>
        rw [hr] at hrelates
        simp only [hr] at hrest
        cases hrelates with
        | ok hp hm₁ => exact (ends_run hp hm₁ hrest).imp_right (·.right _)
  | run p => exact ends_run hc hm hfits
  | call function receiver args =>
    exact ends_ofEval ((Eval.tracks_callFunction hc.1 hc.2.1 hc.2.2).bind fun v hv => Eval.tracks_hideGlobal hv)
      hm.restarted hfits
  | construct function args => exact ends_ofEval (Eval.tracks_constructFunction hc.1 hc.2) hm.restarted hfits

/-! ### Steps -/

theorem charges_compileTree (tree : Node) (source : Option String) (m : Machine) :
    ((Eval.compileTree tree source).logOn m).charges = 0 := by
  unfold Eval.compileTree
  cases Program.ofTree tree source with
  | ok p => rfl
  | error f => cases f <;> rfl

/-- Actions that count nothing count nothing one after the other. -/
theorem charges_bind {α β : Type} {x : Eval α} {f : α → Eval β} (hx : ∀ m, (x.logOn m).charges = 0)
    (hf : ∀ a m, ((f a).logOn m).charges = 0) (m : Machine) : ((x >>= f).logOn m).charges = 0 := by
  have hinside : ((x >>= f).logOn m).charges = ((x.andThen f).inside (Eval.answers nestingLimit)
      (Eval.logs nestingLimit) m).charges := by
    change ((x.andThen f).log (Eval.answers nestingLimit) (Eval.logs nestingLimit) m).charges = _
    rw [Eval.log_eq, Log.charges, List.countP_cons_of_neg (by exact Bool.false_ne_true), ← Log.charges,
      Log.charges_append]
    rfl
  have hfirst := hx m
  rw [hinside, Eval.inside_andThen, Log.charges_append]
  unfold Eval.logOn at hfirst hf
  rw [hfirst]
  cases x.run (Eval.answers nestingLimit) m with
  | ok a m₁ => exact (Nat.zero_add _).trans (hf a m₁)
  | error s m₁ => rfl

theorem charges_openScopes (bindings : ObjectId) (root : Option ObjectId) (m : Machine) :
    ((Eval.openScopes bindings root).logOn m).charges = 0 := by
  refine charges_bind (fun _ => rfl) (fun held => charges_bind (fun _ => rfl) fun superScope => ?_) m
  cases root with
  | none => exact fun _ => rfl
  | some root => exact fun _ => rfl

theorem charges_runLog (p : Program) (m : Machine) : (runLog p m).charges ≤ m.limits.maxSteps + 1 := by
  have hexecute := (Eval.execute p).logOn_tallied (restarted m)
  have hcounted := (Eval.execute p).run_counted (Eval.answers_counted nestingLimit) (restarted m)
  change Counted (restarted m) ((Eval.execute p).runOn (restarted m)) at hcounted
  have hsteps : (restarted m).steps = 0 := rfl
  have hlimits : (restarted m).limits.maxSteps = m.limits.maxSteps := rfl
  unfold runLog
  cases hr : (Eval.execute p).runOn (restarted m) with
  | error s m₁ =>
    have hlimited := hexecute.limited
    dsimp only
    rw [List.append_nil]
    omega
  | ok v m₁ =>
    rw [hr] at hexecute hcounted
    have hlast := ((Eval.hideGlobal v).logOn_tallied (returned m₁)).congr (m := m₁) ⟨rfl, rfl⟩ rfl rfl
    have hlimited := (hexecute.trans hcounted rfl hlast).limited
    dsimp only
    omega

/-- A host call counts no more steps than the limit allows, and the one that goes past it. -/
theorem charges_le (c : HostCall) (m : Machine) : (c.log m).charges ≤ m.limits.maxSteps + 1 := by
  have hrestarted {α : Type} (x : Eval α) : (x.logOn (restarted m)).charges ≤ m.limits.maxSteps + 1 := by
    have hlimited := (x.logOn_tallied (restarted m)).limited
    have hsteps : (restarted m).steps = 0 := rfl
    have hlimits : (restarted m).limits.maxSteps = m.limits.maxSteps := rfl
    omega
  cases c with
  | reset bindings options =>
    rw [log, charges_openScopes]
    exact Nat.zero_le _
  | evaluate source =>
    simp only [log, Session.parse]
    cases m.rules.treeOf source with
    | error f => exact Nat.zero_le _
    | ok parsed =>
      dsimp only
      rw [Log.charges_append, charges_compileTree, Nat.zero_add]
      have hlimits := ((Eval.compileTree parsed.1 parsed.2).run_counted (Eval.answers_counted nestingLimit) m).limits
      change (finalMachine ((Eval.compileTree parsed.1 parsed.2).runOn m)).limits = m.limits at hlimits
      cases hr : (Eval.compileTree parsed.1 parsed.2).runOn m with
      | error s m₁ => exact Nat.zero_le _
      | ok p m₁ =>
        rw [hr] at hlimits
        rw [← hlimits]
        exact charges_runLog p m₁
  | run p => exact charges_runLog p m
  | call function receiver args => exact hrestarted _
  | construct function args => exact hrestarted _

/-- **Every host call is bounded.** Let a host make any calls on a grounded machine, such as the first one with any graph
of objects of the host on its heap, and let it neither run what no compiler made nor hand in an object that holds names.
Then one more call counts at most one step more than the limit allows. It ends with a value, an uncaught throw, an
interrupt or a source that is refused, unless nesting runs out: a walk through data is given up, or as many requests are
nested in each other as may be. -/
theorem bounded (calls : List HostCall) (c : HostCall) {m : Machine} (hm : m.Grounded)
    (hcalls : ∀ d ∈ calls ++ [c], d.IsCompiled ∧ ∀ id ∈ d.addresses, ¬ (logAll (calls ++ [c]) m).HoldsNames id) :
    (c.log (performAll calls m)).charges ≤ (performAll calls m).limits.maxSteps + 1 ∧
      (Ends (c.perform (performAll calls m)) ∨ (c.log (performAll calls m)).RunsOut nestingLimit) := by
  refine ⟨c.charges_le _, ?_⟩
  obtain ⟨hwithin, hstart, hfits⟩ := reflects_hindsight hm hcalls
  rw [logAll_append] at hfits
  obtain ⟨-, -, hbefore⟩ := mirrored_all (fun d hd => hwithin d (List.mem_append_left _ hd)) hstart hfits.left
  have hfitsLast := hfits.right
  rw [logAll, logAll, List.append_nil] at hfitsLast
  exact c.ends (hwithin c (List.mem_append_right _ (List.mem_singleton_self c))) hbefore hfitsLast

/-- A machine is bound with room for five steps. -/
def fiveSteps : List HostCall :=
  [.reset ⟨22⟩ { parser := some parse, maxSteps := 5 }]

/-- A program whose own end is never reached. -/
def endless : HostCall :=
  .evaluate (.text "for (;;) 1;")

/-- A program without an end counts the five steps that it may, and one more that it is stopped at. -/
theorem bounded_endless :
    bareMachine.Grounded ∧
      (∀ d ∈ fiveSteps ++ [endless],
        d.IsCompiled ∧ ∀ id ∈ d.addresses, ¬ (logAll (fiveSteps ++ [endless]) bareMachine).HoldsNames id) ∧
      (endless.log (performAll fiveSteps bareMachine)).charges ≤ 6 ∧
      (endless.log (performAll fiveSteps bareMachine)).charges = 6 ∧
      (Ends (endless.perform (performAll fiveSteps bareMachine)) ∨
        (endless.log (performAll fiveSteps bareMachine)).RunsOut nestingLimit) := by
  have hbindings : ¬ (logAll (fiveSteps ++ [endless]) bareMachine).HoldsNames ⟨22⟩ := fun hnames =>
    absurd ((leads_logAll (fiveSteps ++ [endless]) bareMachine).size_le_of_holdsNames hnames) (by decide)
  have hcalls : ∀ d ∈ fiveSteps ++ [endless],
      d.IsCompiled ∧ ∀ id ∈ d.addresses, ¬ (logAll (fiveSteps ++ [endless]) bareMachine).HoldsNames id :=
    List.forall_mem_cons.mpr ⟨⟨trivial, fun id hid => List.mem_singleton.mp hid ▸ hbindings⟩,
      List.forall_mem_cons.mpr ⟨⟨trivial, nofun⟩, nofun⟩⟩
  obtain ⟨hcharges, hends⟩ := bounded fiveSteps endless bareMachine_grounded hcalls
  exact ⟨bareMachine_grounded, hcalls, hcharges, by decide +kernel, hends⟩

end HostCall

end GuestScript
