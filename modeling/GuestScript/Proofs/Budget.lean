import GuestScript.Proofs.Log

/-!
# The limit on steps

An evaluation counts its steps and is interrupted when it counts more than its limit allows. The limit has no other
effect: an evaluation that ends within one limit needs some number of steps, ends in the same way within every limit
that leaves it this number, and is interrupted within every smaller one.

The count that an evaluation begins with has no other effect either, unless the clock is read or a random number is
made, since these are taken from the count (`Event.isTimed`).

The relation between runs with two counts and two limits is `Metered`. It is an induction over actions: no action can
look at the limit, only `charge` compares with it, and the interrupt that it raises is never held. Two cases need a
thought.

* A sequence whose first part already overruns the smaller limit is cut off there; else its first part ends in the
  same way, and the comparison goes on with what is left.
* A loop is bounded by a number of rounds that depends on the limit. Every round counts a step, so the limit on steps
  is always met before that bound.

The host calls that evaluate count from zero. The conversion of a value to a document does not: it goes on with the
count that the last of them left.
-/

namespace GuestScript

variable {α β : Type} {base count : Nat} {x : Run α} {under : Nat → Run α} {m : Machine} {f : α → Run β}
  {log log' : Machine → Log} {l l' : Log}

/-! ## 1. Other limits -/

/-- The machine with another limit on steps. -/
def Machine.withLimit (m : Machine) (limit : Nat) : Machine :=
  { m with limits := { m.limits with maxSteps := limit } }

/-- The machine with another limit on steps, and with another count in the place of the one at the base. -/
def Machine.withBudget (m : Machine) (base count limit : Nat) : Machine :=
  { m with steps := m.steps - base + count, limits := { m.limits with maxSteps := limit } }

theorem Machine.withBudget_self (h : base ≤ m.steps) (limit : Nat) :
    m.withBudget base base limit = m.withLimit limit := by
  rw [withBudget, withLimit, Nat.sub_add_cancel h]

/-- Whether an event takes something from the count: a random number, or the time. -/
def Event.isTimed : Event → Bool
  | .start .counted _ | .start .clock _ => true
  | _ => false

/-- Whether something else in the place of the count makes no difference: it is the same, or nothing is taken from
it. -/
def Unread (base count : Nat) (l : Log) : Prop :=
  base = count ∨ ∀ event ∈ l, event.isTimed = false

theorem Unread.mono (h : Unread base count l) (hl : l' ⊆ l) : Unread base count l' :=
  h.imp_right fun h event hevent => h event (hl hevent)

/-- The interrupt of an evaluation that goes past a limit on steps. -/
def overrun (limit : Nat) : Interrupt :=
  .of .maxSteps (toString limit) none

/-- Whether a run ends with the interrupt of the limit on steps. -/
def Overran {α : Type} (r : EStateM.Result Stop Machine α) : Prop :=
  ∃ i, interruptOf r = some i ∧ i.code = Diagnostic.maxSteps.code

/-- A run from a machine, compared with the runs from the machine with another count and other limits. -/
structure Affords {α : Type} (base count : Nat) (x : Run α) (under : Nat → Run α) (m : Machine) : Prop where
  limits : (finalMachine (x m)).limits = m.limits
  counts : m.steps ≤ (finalMachine (x m)).steps
  inside : (finalMachine (x m)).steps ≤ m.limits.maxSteps
  /-- A limit that leaves the run its steps does not change it. -/
  enough : ∀ limit, (finalMachine (x m)).steps - base + count ≤ limit →
    under limit (m.withBudget base count limit) = onMachine (·.withBudget base count limit) (x m)
  /-- A limit that does not is overrun. -/
  short : ∀ limit, m.steps - base + count ≤ limit → limit < (finalMachine (x m)).steps - base + count →
    ∃ last, under limit (m.withBudget base count limit) = .error (.interrupt (overrun limit)) last

/-- What all runs do that are not interrupted by their limit on steps. -/
def Metered {α : Type} (base count : Nat) (x : Run α) (log : Machine → Log) : Prop :=
  ∀ m : Machine, m.limits.timeout = 0 → base ≤ m.steps → m.steps ≤ m.limits.maxSteps → ¬ Overran (x m) →
    Unread base count (log m) → Affords base count x (fun _ => x) m

theorem Metered.mono (h : Metered base count x log) (hlog : ∀ m, log m ⊆ log' m) : Metered base count x log' :=
  fun m htime hbase hm hover hread => h m htime hbase hm hover (hread.mono (hlog m))

/-- With the same count, what a run takes from it is the same. -/
theorem Metered.unlogged (h : Metered base base x log) : Metered base base x fun _ => [] :=
  fun m htime hbase hm hover _ => h m htime hbase hm hover (.inl rfl)

/-! ## 2. Single steps -/

/-- Runs that do the same on the machine in question afford the same. -/
theorem Affords.congr {y : Run α} {under' : Nat → Run α} (h : Affords base count x under m) (hx : y m = x m)
    (hunder : ∀ limit, m.steps - base + count ≤ limit →
      under' limit (m.withBudget base count limit) = under limit (m.withBudget base count limit)) :
    Affords base count y under' m := by
  obtain ⟨h₁, h₂, h₃, h₄, h₅⟩ := h
  rw [← hx] at h₁ h₂ h₃ h₄ h₅
  refine ⟨h₁, h₂, h₃, ?_, ?_⟩
  · intro limit hlimit
    rw [hunder limit (by omega)]
    exact h₄ limit hlimit
  · intro limit hle hlimit
    rw [hunder limit hle]
    exact h₅ limit hle hlimit

/-- A run that counts no steps and does not look at the limit. -/
theorem Affords.of_free (hlimits : (finalMachine (x m)).limits = m.limits)
    (hsteps : (finalMachine (x m)).steps = m.steps) (hm : m.steps ≤ m.limits.maxSteps)
    (hsame : ∀ limit, under limit (m.withBudget base count limit) =
      onMachine (·.withBudget base count limit) (x m)) : Affords base count x under m := by
  refine ⟨hlimits, by omega, by omega, fun limit _ => hsame limit, ?_⟩
  intro limit h₁ h₂
  omega

/-- Counting a step. -/
theorem charged_metered : Metered base count Machine.charged log := by
  intro m htime hbase hm hover _
  have hnext : m.steps - base + count + 1 = m.steps + 1 - base + count := by omega
  have hself : m.charged = if m.limits.maxSteps < m.steps + 1 then
      .error (.interrupt (overrun m.limits.maxSteps)) { m with steps := m.steps + 1 }
      else .ok () { m with steps := m.steps + 1 } := by
    simp only [Machine.charged, htime]
    rfl
  have hcharged : ∀ limit, (m.withBudget base count limit).charged =
      if limit < m.steps + 1 - base + count then
        .error (.interrupt (overrun limit)) (Machine.withBudget { m with steps := m.steps + 1 } base count limit)
      else .ok () (Machine.withBudget { m with steps := m.steps + 1 } base count limit) := by
    intro limit
    simp only [Machine.charged, Machine.withBudget, htime, hnext]
    rfl
  have hroom : m.steps + 1 ≤ m.limits.maxSteps := by
    by_cases hlt : m.limits.maxSteps < m.steps + 1
    · exact absurd ⟨overrun m.limits.maxSteps, by rw [hself, if_pos hlt]; rfl, rfl⟩ hover
    · omega
  rw [if_neg (by omega)] at hself
  constructor
  · rw [hself]; rfl
  · rw [hself]; exact Nat.le_succ _
  · rw [hself]; exact hroom
  · intro limit hlimit
    rw [hself] at hlimit ⊢
    simp only [finalMachine] at hlimit
    rw [hcharged, if_neg (by omega)]
    rfl
  · intro limit _ hlimit
    rw [hself] at hlimit
    simp only [finalMachine] at hlimit
    rw [hcharged, if_pos hlimit]
    exact ⟨_, rfl⟩

/-! ## 3. Runs one after the other -/

section

/-- Go on with the result of a run. -/
def Run.bind (x : Run α) (f : α → Run β) : Run β := fun m =>
  match x m with
  | .ok a m => f a m
  | .error e m => .error e m

/-- A run that goes on with the result of another one affords what both parts afford. -/
theorem Affords.bind (hx : Affords base count x under m) (next : Nat → α → Run β)
    (hf : ∀ a m', x m = .ok a m' → Affords base count (f a) (fun limit => next limit a) m') :
    Affords base count (x.bind f) (fun limit => (under limit).bind (next limit)) m := by
  obtain ⟨h₁, h₂, h₃, h₄, h₅⟩ := hx
  cases hr : x m with
  | error e m' =>
    have heq : x.bind f m = .error e m' := by simp only [Run.bind, hr]
    rw [hr] at h₁ h₂ h₃ h₄ h₅
    refine ⟨by rw [heq]; exact h₁, by rw [heq]; exact h₂, by rw [heq]; exact h₃, ?_, ?_⟩
    · intro limit hlimit
      rw [heq] at hlimit ⊢
      simp only [Run.bind, h₄ limit hlimit, onMachine]
    · intro limit hle hlimit
      rw [heq] at hlimit
      obtain ⟨last, hlast⟩ := h₅ limit hle hlimit
      exact ⟨last, by simp only [Run.bind, hlast]⟩
  | ok a m' =>
    have heq : x.bind f m = f a m' := by simp only [Run.bind, hr]
    obtain ⟨g₁, g₂, g₃, g₄, g₅⟩ := hf a m' hr
    rw [hr] at h₁ h₂ h₃ h₄ h₅
    simp only [finalMachine] at h₁ h₂ h₃ h₄ h₅
    refine ⟨by rw [heq, g₁, h₁], by rw [heq]; omega, by rw [heq, ← h₁]; exact g₃, ?_, ?_⟩
    · intro limit hlimit
      rw [heq] at hlimit ⊢
      simp only [Run.bind, h₄ limit (by omega), onMachine]
      exact g₄ limit hlimit
    · -- The first part alone overruns the limit, or it fits and the rest overruns it.
      intro limit hle hlimit
      rw [heq] at hlimit
      by_cases hfirst : limit < m'.steps - base + count
      · obtain ⟨last, hlast⟩ := h₅ limit hle hfirst
        exact ⟨last, by simp only [Run.bind, hlast]⟩
      · obtain ⟨last, hlast⟩ := g₅ limit (by omega) hlimit
        refine ⟨last, ?_⟩
        simp only [Run.bind, h₄ limit (by omega), onMachine]
        exact hlast

/-- The first part of a run that its limit does not interrupt is not interrupted either. -/
theorem not_overran_of_bind (h : ¬ Overran (x.bind f m)) : ¬ Overran (x m) := by
  rintro ⟨i, hi, hcode⟩
  refine h ⟨i, ?_, hcode⟩
  simp only [Run.bind]
  cases hr : x m with
  | ok a m' => rw [hr] at hi; cases hi
  | error e m' => rw [hr] at hi; exact hi

/-- A run goes on within its limits after a first part. -/
theorem Affords.rest {m' : Machine} {a : α} (hx : Affords base count x under m) (hr : x m = .ok a m')
    (htime : m.limits.timeout = 0) (hbase : base ≤ m.steps) (hover : ¬ Overran (x.bind f m)) :
    m'.limits.timeout = 0 ∧ base ≤ m'.steps ∧ m'.steps ≤ m'.limits.maxSteps ∧ ¬ Overran (f a m') := by
  have hlimits := hx.limits
  have hcounts := hx.counts
  have hinside := hx.inside
  rw [hr] at hlimits hcounts hinside
  simp only [finalMachine] at hlimits hcounts hinside
  refine ⟨by rw [hlimits]; exact htime, by omega, by rw [hlimits]; exact hinside, ?_⟩
  simpa only [Run.bind, hr] using hover

theorem Metered.bind {logs : α → Machine → Log} (hx : Metered base count x log)
    (hf : ∀ a, Metered base count (f a) (logs a)) (hlog : ∀ m, log m ⊆ log' m)
    (hlogs : ∀ m a m', x m = .ok a m' → logs a m' ⊆ log' m) : Metered base count (x.bind f) log' := by
  intro m htime hbase hm hover hread
  have hxm := hx m htime hbase hm (not_overran_of_bind hover) (hread.mono (hlog m))
  refine hxm.bind (fun _ => f) ?_
  intro a m' hr
  obtain ⟨htime', hbase', hm', hover'⟩ := hxm.rest hr htime hbase hover
  exact hf a m' htime' hbase' hm' hover' (hread.mono (hlogs m a m' hr))

end

/-! ## 4. Runs with other registers -/

/-- A run inside another one that changes registers before it and after it, and may hold what it throws but no
interrupt. -/
theorem Metered.wrap {β : Type} {y : Run β} (hx : Metered base count x log) (enter : Registers → Registers)
    (leave : Registers → EStateM.Result Stop Machine α → EStateM.Result Stop Machine β)
    (hy : ∀ m, y m = leave m.toRegisters (x (m.withRegisters enter)))
    (hlimits : ∀ r res, (finalMachine (leave r res)).limits = (finalMachine res).limits)
    (hsteps : ∀ r res, (finalMachine (leave r res)).steps = (finalMachine res).steps)
    (hsame : ∀ r res limit, leave r (onMachine (·.withBudget base count limit) res) =
      onMachine (·.withBudget base count limit) (leave r res))
    (hstop : ∀ r i last, ∃ last', leave r (.error (.interrupt i) last) = .error (.interrupt i) last') :
    Metered base count y fun m => log (m.withRegisters enter) := by
  intro m htime hbase hm hover hread
  have hxm : Affords base count x (fun _ => x) (m.withRegisters enter) := by
    refine hx _ htime hbase hm ?_ hread
    intro h
    obtain ⟨i, hi, hcode⟩ := h
    refine hover ⟨i, ?_, hcode⟩
    rw [hy]
    cases hr : x (m.withRegisters enter) with
    | ok a last => rw [hr] at hi; cases hi
    | error e last =>
      rw [hr] at hi
      cases e <;> cases hi
      obtain ⟨last', hlast⟩ := hstop m.toRegisters i last
      rw [hlast]
      rfl
  obtain ⟨h₁, h₂, h₃, h₄, h₅⟩ := hxm
  refine ⟨?_, ?_, ?_, ?_, ?_⟩
  · rw [hy, hlimits]; exact h₁
  · rw [hy, hsteps]; exact h₂
  · rw [hy, hsteps]; exact h₃
  · intro limit hlimit
    rw [hy, hsteps] at hlimit
    have hinner : x ((m.withBudget base count limit).withRegisters enter) = _ := h₄ limit hlimit
    rw [hy, hy, hinner]
    exact hsame _ _ limit
  · intro limit hle hlimit
    rw [hy, hsteps] at hlimit
    obtain ⟨last, hlast⟩ := h₅ limit hle hlimit
    have hinner : x ((m.withBudget base count limit).withRegisters enter) = _ := hlast
    rw [hy, hinner]
    exact hstop _ _ last

/-- A run between changes of registers. -/
theorem Metered.between (hx : Metered base count x log) (enter : Registers → Registers)
    (leave : Registers → Registers → Registers) :
    Metered base count (x.between enter leave) fun m => log (m.withRegisters enter) := by
  refine hx.wrap enter (fun r => onMachine fun m => m.withRegisters (leave r)) ?_ ?_ ?_ ?_ ?_
  · intro m; exact Run.between_eq enter leave x m
  · intro r res; cases res <;> rfl
  · intro r res; cases res <;> rfl
  · intro r res limit; cases res <;> rfl
  · intro r i last; exact ⟨_, rfl⟩

/-! ## 5. Loops -/

section

variable {σ : Type} {round : σ → Run (Flow σ α)}

/-- What a loop does after a round. -/
def Run.after (round : σ → Run (Flow σ α)) (before fuel : Nat) : Flow σ α → Run α
  | .leave a => fun m => .ok a m
  | .proceed s => fun m => if before < m.steps then Run.rounds round fuel s m else .error .exhausted m

theorem rounds_succ (fuel : Nat) (s : σ) (m : Machine) :
    Run.rounds round (fuel + 1) s m = (round s).bind (Run.after round m.steps fuel) m := by
  simp only [Run.rounds, Run.bind]
  cases round s m with
  | error e m' => rfl
  | ok a m' => cases a <;> rfl

/-- The rounds of a loop, under bounds that the limit on steps is met before. The induction is on the bound; the
bounds under other limits go down with it. -/
theorem rounds_affords {log : σ → Machine → Log} (hround : ∀ s, Metered base count (round s) (log s)) :
    ∀ (fuel : Nat) (other : Nat → Nat) (s : σ) (m : Machine), m.limits.timeout = 0 → base ≤ m.steps →
      m.steps ≤ m.limits.maxSteps → m.limits.maxSteps < m.steps + fuel →
      (∀ limit, limit < m.steps - base + count + other limit) → ¬ Overran (Run.rounds round fuel s m) →
      Unread base count (Run.roundsLog round log fuel s m) →
      Affords base count (Run.rounds round fuel s) (fun limit => Run.rounds round (other limit) s) m
  | 0, _, _, m, _, _, hm, hfuel, _, _, _ => by omega
  | fuel + 1, other, s, m, htime, hbase, hm, hfuel, hother, hover, hread => by
    rw [rounds_succ] at hover
    rw [Run.roundsLog] at hread
    have hfirst := hround s m htime hbase hm (not_overran_of_bind hover) (hread.mono (List.subset_append_left _ _))
    have hbind : Affords base count ((round s).bind (Run.after round m.steps fuel))
        (fun limit => (round s).bind (Run.after round (m.steps - base + count) (other limit - 1))) m := by
      refine hfirst.bind (fun limit => Run.after round (m.steps - base + count) (other limit - 1)) ?_
      intro flow m' hr
      obtain ⟨htime', hbase', hm', hover'⟩ := hfirst.rest hr htime hbase hover
      have hlimits := hfirst.limits
      rw [hr] at hlimits
      simp only [finalMachine] at hlimits
      cases flow with
      | leave a => exact .of_free rfl rfl hm' fun limit => rfl
      | proceed s' =>
        by_cases hcount : m.steps < m'.steps
        · have hcount' : m.steps - base + count < m'.steps - base + count := by omega
          have hread' : Unread base count (Run.roundsLog round log fuel s' m') := by
            simp only [hr, hcount, if_true] at hread
            exact hread.mono (List.subset_append_right _ _)
          have hrest := rounds_affords hround fuel (fun limit => other limit - 1) s' m' htime' hbase' hm'
            (by rw [hlimits]; omega) (fun limit => by have := hother limit; omega)
            (by simpa only [Run.after, hcount, if_true] using hover') hread'
          exact hrest.congr (if_pos hcount) fun limit _ => if_pos hcount'
        · have heq : ∀ before fuel last, ¬ before < last.steps →
              Run.after round before fuel (.proceed s') last = .error .exhausted last :=
            fun before fuel last hlast => if_neg hlast
          have hcount' : ¬ m.steps - base + count < m'.steps - base + count := by omega
          refine .of_free ?_ ?_ hm' ?_
          · rw [heq _ _ _ hcount]; rfl
          · rw [heq _ _ _ hcount]; rfl
          · intro limit
            rw [heq _ _ _ hcount, heq _ _ (m'.withBudget base count limit) hcount']
            rfl
    refine hbind.congr (rounds_succ fuel s m) ?_
    intro limit hle
    have hpos := hother limit
    obtain ⟨k, hk⟩ : ∃ k, other limit = k + 1 := ⟨other limit - 1, by omega⟩
    simp only [hk, rounds_succ]
    rfl

end

/-! ## 6. Every action is metered -/

namespace Eval

theorem inside_subset_log (answers : Answers) (logs : RequestLogs) (x : Eval α) (m : Machine) :
    x.inside answers logs m ⊆ x.log answers logs m :=
  List.subset_cons_of_subset _ (List.subset_append_left _ _)

/-- **The count and the limit on steps have no other effect on an action**, if they have none on the answers to its
requests. -/
theorem run_metered {answers : Answers} {logs : RequestLogs}
    (hask : ∀ request, Metered base count (answers request) (logs request)) (x : Eval α) :
    Metered base count (x.run answers) (x.log answers logs) := by
  induction x with
  | done | stop | read | update =>
    exact fun _ _ _ hm _ _ => .of_free rfl rfl hm fun _ => rfl
  | counted | clock =>
    intro m _ hbase hm _ hread
    obtain rfl | hnone := hread
    · refine .of_free rfl rfl hm fun limit => ?_
      simp only [run, onMachine, Machine.withBudget_self hbase]
      rfl
    · cases hnone _ List.mem_cons_self
  | charge => exact charged_metered
  | andThen x f ihx ihf =>
    have heq : (andThen x f).run answers = (x.run answers).bind fun a => (f a).run answers := by
      funext m
      cases hx : x.run answers m <;> simp only [run, Run.bind, hx]
    rw [heq]
    refine ihx.bind ihf (fun m => ?_) fun m a m' hr => ?_
    · refine List.Subset.trans ?_ (inside_subset_log answers logs _ m)
      rw [inside_andThen]
      exact List.subset_append_left _ _
    · refine List.Subset.trans ?_ (inside_subset_log answers logs _ m)
      rw [inside_andThen, hr]
      exact List.subset_append_right _ _
  | settle x ih =>
    refine (ih.wrap id (fun _ => settled) ?_ ?_ ?_ ?_ ?_).mono (inside_subset_log answers logs (settle x))
    · intro m
      exact run_settle answers x m
    · intro r res; cases res with | ok => rfl | error e => cases e <;> rfl
    · intro r res; cases res with | ok => rfl | error e => cases e <;> rfl
    · intro r res limit; cases res with | ok => rfl | error e => cases e <;> rfl
    · intro r i last; exact ⟨last, rfl⟩
  | within frame x ih =>
    exact (ih.between frame.enter frame.leave).mono (inside_subset_log answers logs (within frame x))
  | nest name x refused ihx ihr =>
    intro m htime hbase hm hover hread
    have hinside := hread.mono (inside_subset_log answers logs _ m)
    rw [inside_nest] at hinside
    by_cases hadmits : m.admitsCall = true
    · have heq : (nest name x refused).run answers m =
          (x.run answers).between (Registers.enterCall name) (fun _ => Registers.leaveCall) m :=
        if_pos hadmits
      rw [heq] at hover
      rw [if_pos hadmits] at hinside
      exact (ihx.between _ _ m htime hbase hm hover hinside).congr heq fun limit _ => if_pos hadmits
    · have heq : (nest name x refused).run answers m = refused.run answers m := if_neg hadmits
      rw [heq] at hover
      rw [if_neg hadmits] at hinside
      exact (ihr m htime hbase hm hover hinside).congr heq fun limit _ => if_neg hadmits
  | loop round start ih =>
    intro m htime hbase hm hover hread
    have hinside := hread.mono (inside_subset_log answers logs _ m)
    rw [inside_loop] at hinside
    exact (rounds_affords ih (m.limits.maxSteps + 1) (fun limit => limit + 1) start m htime hbase hm (by omega)
      (fun limit => by omega) hover hinside).congr rfl fun limit _ => rfl
  | ask request => exact (hask request).mono (inside_subset_log answers logs (ask request))

/-- The answers to requests are metered, however deep requests are nested. -/
theorem answers_metered : ∀ (n : Nat) (request : Request), Metered base count (answers n request) (logs n request)
  | 0, _ => fun _ _ _ hm _ _ => .of_free rfl rfl hm fun _ => rfl
  | n + 1, request => run_metered (answers_metered n) (serve request)

/-- An action on a machine is metered. -/
theorem runOn_metered (x : Eval α) : Metered base count x.runOn x.logOn :=
  run_metered (answers_metered nestingLimit) x

end Eval

/-! ## 7. Host calls -/

/-- The text of an uncaught value does not depend on the limit. -/
theorem surfaced_withLimit (r : EStateM.Result Stop Machine α) (limit : Nat) :
    surfaced (onMachine (·.withLimit limit) r) = onMachine (·.withLimit limit) (surfaced r) := by
  cases r with
  | ok a m => rfl
  | error s m => cases s <;> rfl

namespace HostCall

open Session (restarted returned)

/-- A host call from a machine, compared with the same call under other limits. -/
structure Affords (h : Session Value) (m : Machine) : Prop where
  inside : (finalMachine (h m)).steps ≤ m.limits.maxSteps
  enough : ∀ limit, (finalMachine (h m)).steps ≤ limit →
    h (m.withLimit limit) = onMachine (·.withLimit limit) (h m)
  short : ∀ limit, limit < (finalMachine (h m)).steps →
    ∃ last, h (m.withLimit limit) = .error (.interrupt (overrun limit)) last

/-- Whether a host call ends with the interrupt of the limit on steps. -/
def Overran (r : EStateM.Result Failure Machine Value) : Prop :=
  ∃ i, interruptOf r = some i ∧ i.code = Diagnostic.maxSteps.code

/-- A host call that starts an evaluation and gives what a run from there gives. -/
theorem affords_of_metered {x : Run Value} (hx : Metered 0 0 x log) {h : Session Value}
    (heq : ∀ m, h m = surfaced (x (restarted m))) (htime : m.limits.timeout = 0) (hover : ¬ Overran (h m)) :
    Affords h m := by
  have hover' : ¬ GuestScript.Overran (x (restarted m)) := by
    rintro ⟨i, hi, hcode⟩
    refine hover ⟨i, ?_, hcode⟩
    rw [heq]
    cases hr : x (restarted m) with
    | ok a last => rw [hr] at hi; cases hi
    | error s last => rw [hr] at hi; cases s <;> cases hi; rfl
  obtain ⟨_, _, h₃, h₄, h₅⟩ := hx (restarted m) htime (Nat.zero_le _) (Nat.zero_le _) hover' (.inl rfl)
  change ∀ limit, _ ≤ limit → x ((restarted m).withLimit limit) = onMachine (·.withLimit limit) _ at h₄
  change ∀ limit, _ ≤ limit → _ → ∃ last, x ((restarted m).withLimit limit) = _ at h₅
  refine ⟨?_, ?_, ?_⟩
  · rw [heq, finalMachine_surfaced]
    exact h₃
  · intro limit hlimit
    rw [heq, finalMachine_surfaced] at hlimit
    rw [heq, heq, show restarted (m.withLimit limit) = (restarted m).withLimit limit from rfl,
      h₄ limit hlimit, surfaced_withLimit]
  · intro limit hlimit
    rw [heq, finalMachine_surfaced] at hlimit
    obtain ⟨last, hlast⟩ := h₅ limit (Nat.zero_le _) hlimit
    rw [heq, show restarted (m.withLimit limit) = (restarted m).withLimit limit from rfl, hlast]
    exact ⟨last, rfl⟩

/-- What a program does from the start of its evaluation. -/
def program (p : Program) : Run Value :=
  Run.bind (fun m => onMachine returned ((Eval.execute p).runOn m)) fun v => (Eval.hideGlobal v).runOn

theorem program_metered (p : Program) : Metered 0 0 (program p) fun _ => [] := by
  refine Metered.bind ?_ (fun v => (Eval.runOn_metered _).unlogged) (fun _ => List.Subset.refl _)
    fun _ _ _ _ => List.Subset.refl _
  refine (Eval.runOn_metered (Eval.execute p)).unlogged.wrap id (fun _ => onMachine returned) ?_ ?_ ?_ ?_ ?_
  · intro m; rfl
  · intro r res; cases res <;> rfl
  · intro r res; cases res <;> rfl
  · intro r res limit; cases res <;> rfl
  · intro r i last; exact ⟨_, rfl⟩

theorem run_eq_program (p : Program) (m : Machine) :
    Session.run p m = surfaced (program p (restarted m)) := by
  rw [run_eq]
  simp only [program, Run.bind]
  cases (Eval.execute p).runOn (restarted m) with
  | ok v m => exact Session.ofEval_eq _ _
  | error s m => rfl

/-- A part of a host call that counts no steps and does not look at the limit. -/
structure Free {α : Type} (h : Session α) : Prop where
  steps : ∀ m, (finalMachine (h m)).steps = m.steps
  limits : ∀ m, (finalMachine (h m)).limits = m.limits
  same : ∀ m limit, h (m.withLimit limit) = onMachine (·.withLimit limit) (h m)

theorem Free.bind {β : Type} {h : Session α} {f : α → Session β} (hh : Free h) (hf : ∀ a, Free (f a)) :
    Free (h >>= f) := by
  constructor
  · intro m
    have hsteps := hh.steps m
    cases hr : h m with
    | ok a m' =>
      rw [hr] at hsteps
      rw [Session.bind_of_ok hr]
      exact ((hf a).steps m').trans hsteps
    | error e m' =>
      rw [hr] at hsteps
      rw [Session.bind_of_error hr]
      exact hsteps
  · intro m
    have hlimits := hh.limits m
    cases hr : h m with
    | ok a m' =>
      rw [hr] at hlimits
      rw [Session.bind_of_ok hr]
      exact ((hf a).limits m').trans hlimits
    | error e m' =>
      rw [hr] at hlimits
      rw [Session.bind_of_error hr]
      exact hlimits
  · intro m limit
    have hsame := hh.same m limit
    cases hr : h m with
    | ok a m' =>
      rw [hr] at hsame
      rw [Session.bind_of_ok hr, Session.bind_of_ok hsame]
      exact (hf a).same m' limit
    | error e m' =>
      rw [hr] at hsame
      rw [Session.bind_of_error hr, Session.bind_of_error hsame]
      rfl

theorem parse_free (source : Source) : Free (Session.parse source) := by
  refine ⟨fun m => ?_, fun m => ?_, fun m limit => ?_⟩
  · simp only [Session.parse]
    cases m.rules.treeOf source <;> rfl
  · simp only [Session.parse]
    cases m.rules.treeOf source <;> rfl
  · simp only [Session.parse, Machine.withLimit]
    cases m.rules.treeOf source <;> rfl

theorem compileTree_free (tree : Node) (text : Option String) :
    Free (Session.ofEval (Eval.compileTree tree text)) := by
  simp only [Eval.compileTree]
  cases Program.ofTree tree text with
  | ok p => exact ⟨fun _ => rfl, fun _ => rfl, fun _ _ => rfl⟩
  | error e => cases e <;> exact ⟨fun _ => rfl, fun _ => rfl, fun _ _ => rfl⟩

theorem compile_free (source : Source) : Free (Session.compile source) :=
  (parse_free source).bind fun parsed => compileTree_free parsed.1 parsed.2

/-- Evaluating a source: it may fail to compile, before any step is counted, else its program is run. -/
theorem evaluate_affords (source : Source) (htime : m.limits.timeout = 0) (hstart : m.steps = 0)
    (hover : ¬ Overran (Session.evaluate source m)) :
    Affords (Session.evaluate source) m := by
  obtain ⟨hsteps, hlimits, hsame⟩ := compile_free source
  have hsteps := hsteps m
  have hlimits := hlimits m
  have hsame := hsame m
  cases hc : Session.compile source m with
  | error f m' =>
    rw [hc] at hsteps hlimits hsame
    have hself : Session.evaluate source m = .error f m' := Session.bind_of_error hc
    have hzero : (finalMachine (Session.evaluate source m)).steps = 0 := by
      rw [hself, ← hstart]
      exact hsteps
    refine ⟨by omega, fun limit _ => ?_, fun limit hlimit => by omega⟩
    rw [hself]
    exact Session.bind_of_error (hsame limit)
  | ok p m' =>
    rw [hc] at hsteps hlimits hsame
    have hself : Session.evaluate source m = Session.run p m' := Session.bind_of_ok hc
    have hunder : ∀ limit, Session.evaluate source (m.withLimit limit) =
        Session.run p (m'.withLimit limit) :=
      fun limit => Session.bind_of_ok (hsame limit)
    rw [hself] at hover
    have hlimits : m'.limits = m.limits := hlimits
    obtain ⟨h₁, h₂, h₃⟩ := affords_of_metered (program_metered p) (run_eq_program p)
      (by rw [hlimits]; exact htime) hover
    rw [← hself] at h₁ h₂ h₃
    refine ⟨by rw [← hlimits]; exact h₁, fun limit hlimit => ?_, fun limit hlimit => ?_⟩
    · rw [hunder limit]
      exact h₂ limit hlimit
    · rw [hunder limit]
      exact h₃ limit hlimit

/-- Whether a host call evaluates something. -/
def evaluates : HostCall → Bool
  | reset _ _ => false
  | _ => true

/-- Every host call that evaluates something, on a machine that is set up and has no limit on time. -/
theorem perform_affords (c : HostCall) (hc : c.evaluates) (htime : m.limits.timeout = 0) (hstart : m.steps = 0)
    (hover : ¬ Overran (c.perform m)) : Affords c.perform m := by
  cases c with
  | reset bindings options => cases hc
  | evaluate source => exact evaluate_affords source htime hstart hover
  | run p => exact affords_of_metered (program_metered p) (run_eq_program p) htime hover
  | call function receiver args =>
    exact affords_of_metered (Eval.runOn_metered _) (fun m => Session.ofEval_eq _ _) htime hover
  | construct function args =>
    exact affords_of_metered (Eval.runOn_metered _) (fun m => Session.ofEval_eq _ _) htime hover

/-- Bind the machine, and make a host call within a limit on steps. -/
def within (c : HostCall) (bindings : ObjectId) (options : Options) (limit : Nat) : Session Value := do
  Session.reset bindings { options with maxSteps := limit }
  c.perform

/-- A reset leaves a machine that is set up, on which only the limit depends on the limit. -/
theorem within_eq (c : HostCall) (bindings : ObjectId) (options : Options) (m : Machine) :
    ∃ m' : Machine, m'.limits.timeout = options.timeout ∧ m'.steps = 0 ∧
      ∀ limit, c.within bindings options limit m = c.perform (m'.withLimit limit) := by
  have hopen : ∃ opened m', Session.ofEval (Eval.openScopes bindings options.rootContext) m =
      .ok opened m' := by
    simp only [Session.ofEval, Eval.runOn, Eval.openScopes, Eval.allocate, Eval.openFrame, Eval.newScope, Eval.newObject,
      bind, pure, Eval.run, Machine.updated, Update.apply.eq_def]
    cases options.rootContext <;> simp [Eval.run, Machine.updated, Update.apply.eq_def]
  obtain ⟨opened, m', hopen⟩ := hopen
  refine ⟨Session.bound bindings options opened m', rfl, rfl, fun limit => ?_⟩
  simp only [within, Session.reset, bind, EStateM.bind, hopen]
  rfl

/-- **The limit on steps is monotone.** A host call that does not end by its limit counts some number of steps.
Within every limit that leaves it this number, it gives the same result, the same machine and the same count; within
every other one, it is interrupted with a message that names the limit. -/
theorem step_limit_monotone (c : HostCall) (hc : c.evaluates) (bindings : ObjectId) (options : Options)
    (htime : options.timeout = 0) (m : Machine) (limit : Nat)
    (hends : ∀ i last, c.within bindings options limit m = .error (.interrupt i) last → i.code ≠ 3003) :
    ∃ steps ≤ limit, (finalMachine (c.within bindings options limit m)).steps = steps ∧
      (∀ other, steps ≤ other →
        c.within bindings options other m =
          onMachine (·.withLimit other) (c.within bindings options limit m) ∧
        (finalMachine (c.within bindings options other m)).steps = steps) ∧
      ∀ other, other < steps → ∃ i last,
        c.within bindings options other m = .error (.interrupt i) last ∧ i.code = 3003 ∧
        i.message = "Script execution exceeded maximum of " ++ toString other ++ " steps" := by
  obtain ⟨m', htime', hstart, heq⟩ := within_eq c bindings options m
  have hover : ¬ Overran (c.perform (m'.withLimit limit)) := by
    rintro ⟨i, hi, hcode⟩
    rw [← heq limit] at hi
    cases hr : c.within bindings options limit m with
    | ok v last => rw [hr] at hi; cases hi
    | error f last =>
      rw [hr] at hi
      cases f <;> cases hi
      exact hends i last hr hcode
  obtain ⟨h₁, h₂, h₃⟩ :=
    c.perform_affords hc (m := m'.withLimit limit) (htime'.trans htime) hstart hover
  rw [← heq limit] at h₁ h₂ h₃
  refine ⟨_, h₁, rfl, ?_, ?_⟩
  · intro other hother
    have hsame := h₂ other hother
    rw [show (m'.withLimit limit).withLimit other = m'.withLimit other from rfl, ← heq other] at hsame
    refine ⟨hsame, ?_⟩
    rw [hsame]
    cases c.within bindings options limit m <;> rfl
  · intro other hother
    obtain ⟨last, hlast⟩ := h₃ other hother
    rw [show (m'.withLimit limit).withLimit other = m'.withLimit other from rfl, ← heq other] at hlast
    exact ⟨overrun other, last, hlast, rfl, rfl⟩

/-- A program of three steps, within a limit of five. -/
theorem step_limit_monotone_threeSteps :
    let c : HostCall := run ⟨.mk [] [] [] false, .step none (.step none (.step none .empty))⟩
    let options : Options := { timeout := 0 }
    ∃ steps ≤ 5, (finalMachine (c.within ⟨0⟩ options 5 {})).steps = steps ∧
      (∀ other, steps ≤ other →
        c.within ⟨0⟩ options other {} = onMachine (·.withLimit other) (c.within ⟨0⟩ options 5 {}) ∧
        (finalMachine (c.within ⟨0⟩ options other {})).steps = steps) ∧
      ∀ other, other < steps → ∃ i last,
        c.within ⟨0⟩ options other {} = .error (.interrupt i) last ∧ i.code = 3003 ∧
        i.message = "Script execution exceeded maximum of " ++ toString other ++ " steps" := by
  intro c options
  refine step_limit_monotone c rfl ⟨0⟩ options rfl {} 5 ?_
  intro i last h
  have hnone : interruptOf (c.within ⟨0⟩ options 5 {}) = none := by decide +kernel
  rw [h] at hnone
  cases hnone

/-! ## 8. Documents -/

open Session (toJson)

/-- The document that a host gets for the text that a run gives. -/
def documented : EStateM.Result Stop Machine (Option String) → EStateM.Result Failure Machine Json
  | .error s m => Session.surface s m
  | .ok none m => .ok .null m
  | .ok (some text) m =>
    match Json.parse text with
    | .ok j => .ok j m
    | .error _ => .error .json m

theorem toJson_eq (v : Value) (m : Machine) :
    toJson v m = documented ((Eval.jsonText v .undefined .undefined).runOn m) := by
  simp only [toJson, bind, EStateM.bind, Session.ofEval]
  cases (Eval.jsonText v .undefined .undefined).runOn m with
  | error s m => cases s <;> rfl
  | ok text m =>
    cases text with
    | none => rfl
    | some text =>
      simp only [documented]
      cases Json.parse text <;> rfl

/-- A document depends neither on the count nor on the limit, and making it counts no steps. -/
theorem documented_withBudget (r : EStateM.Result Stop Machine (Option String)) (base count limit : Nat) :
    documented (onMachine (·.withBudget base count limit) r) =
        onMachine (·.withBudget base count limit) (documented r) ∧
      finalMachine (documented r) = finalMachine r := by
  cases r with
  | error s m => cases s <;> exact ⟨rfl, rfl⟩
  | ok text m =>
    cases text with
    | none => exact ⟨rfl, rfl⟩
    | some text =>
      simp only [documented, onMachine]
      cases Json.parse text <;> exact ⟨rfl, rfl⟩

theorem onMachine_withBudget_self {ε : Type} {r : EStateM.Result ε Machine α} (h : base ≤ (finalMachine r).steps)
    (limit : Nat) : onMachine (·.withBudget base base limit) r = onMachine (·.withLimit limit) r := by
  cases r with
  | ok a m => exact congrArg _ (Machine.withBudget_self h limit)
  | error e m => exact congrArg _ (Machine.withBudget_self h limit)

/-- What happens during the conversion of a value to a document. -/
def toJsonLog (v : Value) (m : Machine) : Log :=
  (Eval.jsonText v .undefined .undefined).logOn m

/-- A conversion that is not interrupted by its limit, compared with the same one from another count. -/
theorem jsonText_affords (v : Value) (htime : m.limits.timeout = 0) (hinside : m.steps ≤ m.limits.maxSteps)
    (hends : ∀ i last, toJson v m = .error (.interrupt i) last → i.code ≠ 3003) (count : Nat)
    (hread : Unread m.steps count (toJsonLog v m)) :
    GuestScript.Affords m.steps count (Eval.jsonText v .undefined .undefined).runOn
      (fun _ => (Eval.jsonText v .undefined .undefined).runOn) m := by
  refine Eval.runOn_metered _ m htime (Nat.le_refl _) hinside ?_ hread
  rintro ⟨i, hi, hcode⟩
  have heq := toJson_eq v m
  cases hr : (Eval.jsonText v .undefined .undefined).runOn m with
  | ok text last => rw [hr] at hi; cases hi
  | error s last =>
    rw [hr] at hi heq
    cases s <;> cases hi
    exact hends i last heq hcode

/-- **The conversion of a value to a document has no budget of its own.** It goes on with the count that earlier host
calls left. A conversion that does not end by its limit counts some number of steps from there: where the limit leaves
it this number it gives the same document or the same failure, and where it does not it is interrupted.

The count that it goes on with has no other effect: from every other count, a conversion that takes neither the time
nor a random number from it counts as many steps, and gives the same where the limit leaves it these. -/
theorem toJson_goes_on (v : Value) (m : Machine) (htime : m.limits.timeout = 0)
    (hinside : m.steps ≤ m.limits.maxSteps)
    (hends : ∀ i last, toJson v m = .error (.interrupt i) last → i.code ≠ 3003) :
    ∃ steps, (finalMachine (toJson v m)).steps = m.steps + steps ∧
      (∀ limit, m.steps ≤ limit →
        (m.steps + steps ≤ limit →
          toJson v (m.withLimit limit) = onMachine (·.withLimit limit) (toJson v m)) ∧
        (limit < m.steps + steps →
          ∃ last, toJson v (m.withLimit limit) = .error (.interrupt (overrun limit)) last)) ∧
      ((∀ event ∈ toJsonLog v m, event.isTimed = false) → ∀ count limit, count ≤ limit →
        (count + steps ≤ limit → toJson v (m.withBudget m.steps count limit) =
          onMachine (·.withBudget m.steps count limit) (toJson v m)) ∧
        (limit < count + steps → ∃ last,
          toJson v (m.withBudget m.steps count limit) = .error (.interrupt (overrun limit)) last)) := by
  have hafford := jsonText_affords v htime hinside hends
  have hself := hafford m.steps (.inl rfl)
  have hcounts := hself.counts
  obtain ⟨steps, hsteps⟩ := Nat.exists_eq_add_of_le hcounts
  have hfinal : (finalMachine (toJson v m)).steps = m.steps + steps := by
    rw [toJson_eq, (documented_withBudget _ 0 0 0).2, hsteps]
  have hbudget : ∀ count limit, Unread m.steps count (toJsonLog v m) → count ≤ limit →
      (count + steps ≤ limit → toJson v (m.withBudget m.steps count limit) =
        onMachine (·.withBudget m.steps count limit) (toJson v m)) ∧
      (limit < count + steps → ∃ last,
        toJson v (m.withBudget m.steps count limit) = .error (.interrupt (overrun limit)) last) := by
    intro count limit hread hlimit
    have hcount := hafford count hread
    refine ⟨fun h => ?_, fun h => ?_⟩
    · rw [toJson_eq, toJson_eq, hcount.enough limit (by omega), (documented_withBudget _ _ _ _).1]
    · obtain ⟨last, hlast⟩ := hcount.short limit (by omega) (by omega)
      rw [toJson_eq, hlast]
      exact ⟨last, rfl⟩
  refine ⟨steps, hfinal, fun limit hlimit => ?_, fun hnone count limit => hbudget count limit (.inr hnone)⟩
  have hsame := hbudget m.steps limit (.inl rfl) hlimit
  rwa [Machine.withBudget_self (Nat.le_refl _), onMachine_withBudget_self (by omega)] at hsame

/-- A conversion of two steps after an evaluation that counted three, within a limit of five. -/
theorem toJson_goes_on_three :
    let m : Machine := { ({} : Machine) with steps := 3, limits := { maxSteps := 5, timeout := 0 } }
    ∃ steps, (finalMachine (toJson .null m)).steps = 3 + steps ∧
      (∀ limit, 3 ≤ limit →
        (3 + steps ≤ limit →
          toJson .null (m.withLimit limit) = onMachine (·.withLimit limit) (toJson .null m)) ∧
        (limit < 3 + steps →
          ∃ last, toJson .null (m.withLimit limit) = .error (.interrupt (overrun limit)) last)) ∧
      (∀ count limit, count ≤ limit →
        (count + steps ≤ limit → toJson .null (m.withBudget 3 count limit) =
          onMachine (·.withBudget 3 count limit) (toJson .null m)) ∧
        (limit < count + steps → ∃ last,
          toJson .null (m.withBudget 3 count limit) = .error (.interrupt (overrun limit)) last)) := by
  intro m
  have hnone : (interruptOf (toJson .null m)).isNone := by decide +kernel
  obtain ⟨steps, hsteps, hlimits, hcounts⟩ := toJson_goes_on .null m rfl (by decide) fun i last h => by
    rw [h] at hnone
    cases hnone
  exact ⟨steps, hsteps, hlimits, hcounts (by decide +kernel)⟩

end HostCall

end GuestScript
