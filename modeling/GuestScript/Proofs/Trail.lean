import GuestScript.Proofs.Log

/-!
# The store along a log

Objects and scopes only change through updates, and every update is an event. So a log says how the store at the end
of a run came about: between an event and the next one nothing happens to it, and at the start of an update the change
is made (`Log.Leads`).

What is shown here for all logs: the heap never shrinks, and no address is given away twice.
-/

namespace GuestScript

variable {α : Type} {event : Event} {id : ObjectId}

/-! ## 1. Stores -/

/-- Whether two states have the same objects and the same scopes, and protect the same objects. -/
structure State.SameStore (s s' : State) : Prop where
  heap : s'.heap = s.heap
  scopes : s'.scopes = s.scopes
  labels : s'.realm.labels = s.realm.labels

namespace State.SameStore

variable {s s' s'' : State}

theorem refl (s : State) : s.SameStore s := ⟨rfl, rfl, rfl⟩

theorem symm (h : s.SameStore s') : s'.SameStore s := ⟨h.heap.symm, h.scopes.symm, h.labels.symm⟩

theorem trans (h : s.SameStore s') (h' : s'.SameStore s'') : s.SameStore s'' :=
  ⟨h'.heap.trans h.heap, h'.scopes.trans h.scopes, h'.labels.trans h.labels⟩

theorem objectAt (h : s.SameStore s') (id : ObjectId) : s'.objectAt id = s.objectAt id := by
  simp only [State.objectAt, h.heap]

theorem scopeAt (h : s.SameStore s') (id : ScopeId) : s'.scopeAt id = s.scopeAt id := by
  simp only [State.scopeAt, h.scopes]

end State.SameStore

/-- Registers are no part of the store. -/
theorem Machine.sameStore_withRegisters (m : Machine) (f : Registers → Registers) :
    m.toState.SameStore (m.withRegisters f).toState :=
  ⟨rfl, rfl, rfl⟩

/-- The state after an event: the start of an update makes the change. -/
def Event.after : Event → State
  | .start (.update u) m => (u.apply m.toState).2
  | event => event.machine.toState

/-! ## 2. From state to state -/

/-- Whether a log leads from one state to another, as far as the store goes. -/
def Log.Leads : State → Log → State → Prop
  | s, [], s' => s.SameStore s'
  | s, event :: rest, s' => s.SameStore event.machine.toState ∧ Leads event.after rest s'

namespace Log.Leads

variable {s s' t : State} {l l' : Log}

theorem congr (h : Log.Leads s l s') (hs : t.SameStore s) : Log.Leads t l s' := by
  cases l with
  | nil => exact hs.trans h
  | cons event rest => exact ⟨hs.trans h.1, h.2⟩

theorem append (h : Log.Leads s l t) (h' : Log.Leads t l' s') : Log.Leads s (l ++ l') s' := by
  induction l generalizing s with
  | nil => exact h'.congr h
  | cons event rest ih => exact ⟨h.1, ih h.2⟩

theorem last (h : Log.Leads s l s') (hs : s'.SameStore t) : Log.Leads s l t := by
  have hnil : Log.Leads s' [] t := hs
  simpa using h.append hnil

/-- A log can be taken apart at any place. -/
theorem split (h : Log.Leads s (l ++ l') s') : ∃ t, Log.Leads s l t ∧ Log.Leads t l' s' := by
  induction l generalizing s with
  | nil => exact ⟨s, .refl s, h⟩
  | cons event rest ih =>
    obtain ⟨t, hleft, hright⟩ := ih h.2
    exact ⟨t, ⟨h.1, hleft⟩, hright⟩

/-- What every change on the way keeps holds along the log. -/
theorem invariant {I : State → Prop} (hsame : ∀ {s s' : State}, s.SameStore s' → I s → I s')
    (hevent : ∀ event ∈ l, I event.machine.toState → I event.after) (h : Log.Leads s l s') (hs : I s) :
    I s' ∧ ∀ event ∈ l, I event.machine.toState := by
  induction l generalizing s with
  | nil => exact ⟨hsame h hs, fun _ he => nomatch he⟩
  | cons event rest ih =>
    have hbefore : I event.machine.toState := hsame h.1 hs
    have hafter := hevent event List.mem_cons_self hbefore
    obtain ⟨hend, hrest⟩ := ih (fun e he => hevent e (List.mem_cons_of_mem event he)) h.2 hafter
    exact ⟨hend, List.forall_mem_cons.mpr ⟨hbefore, hrest⟩⟩

end Log.Leads

/-! ## 3. Logs of runs -/

/-- Whether the logs of answers lead from where these start to where they end. -/
def Answers.Leads (answers : Answers) (logs : RequestLogs) : Prop :=
  ∀ request m, Log.Leads m.toState (logs request m) (finalMachine (answers request m)).toState

section

variable {σ : Type} {answers : Answers} {logs : RequestLogs}

theorem Run.leads_rounds {round : σ → Run (Flow σ α)} {log : σ → Machine → Log}
    (h : ∀ s m, Log.Leads m.toState (log s m) (finalMachine (round s m)).toState) :
    ∀ (fuel : Nat) (s : σ) (m : Machine),
      Log.Leads m.toState (Run.roundsLog round log fuel s m) (finalMachine (Run.rounds round fuel s m)).toState
  | 0, _, m => .refl m.toState
  | fuel + 1, s, m => by
    have hround := h s m
    unfold Run.rounds Run.roundsLog
    cases hr : round s m with
    | error e m' =>
      rw [hr] at hround
      rwa [List.append_nil]
    | ok flow m' =>
      rw [hr] at hround
      cases flow with
      | leave a => rwa [List.append_nil]
      | proceed s' =>
        dsimp only
        split
        · exact hround.append (leads_rounds h fuel s' m')
        · rwa [List.append_nil]

/-- What happens inside an action leads from its start to its end, unless it is a change itself. -/
theorem Eval.leads_log_of_inside {x : Eval α} {m : Machine} (hx : (Event.start x m).after = m.toState)
    (h : Log.Leads m.toState (x.inside answers logs m) (finalMachine (x.run answers m)).toState) :
    Log.Leads m.toState (x.log answers logs m) (finalMachine (x.run answers m)).toState := by
  refine ⟨.refl _, ?_⟩
  rw [hx]
  exact h.append ⟨.refl _, .refl _⟩

/-- **The log of an action leads from its start to its end**, if the logs of the answers do. -/
theorem Eval.leads_log (hask : answers.Leads logs) (x : Eval α) (m : Machine) :
    Log.Leads m.toState (x.log answers logs m) (finalMachine (x.run answers m)).toState := by
  induction x generalizing m with
  | done | stop | read | counted | clock => exact leads_log_of_inside rfl (.refl _)
  | charge =>
    refine leads_log_of_inside rfl ?_
    have hcharged : m.toState.SameStore (finalMachine m.charged).toState := by
      unfold Machine.charged
      split
      · exact .refl _
      · dsimp only
        split <;> exact .refl _
    exact hcharged
  | update u => exact ⟨.refl _, .refl _, .refl _⟩
  | andThen x f ihx ihf =>
    refine leads_log_of_inside rfl ?_
    have hx := ihx m
    rw [inside_andThen]
    simp only [run]
    cases hr : x.run answers m with
    | error e m' =>
      rw [hr] at hx
      rwa [List.append_nil]
    | ok a m' =>
      rw [hr] at hx
      exact hx.append (ihf a m')
  | settle x ih =>
    refine leads_log_of_inside rfl ?_
    rw [run_settle, finalMachine_settled]
    exact ih m
  | within frame x ih =>
    refine leads_log_of_inside rfl ?_
    simp only [run, Run.between_eq, finalMachine_onMachine]
    exact ((ih _).congr (m.sameStore_withRegisters _)).last (Machine.sameStore_withRegisters _ _)
  | nest name x refused ihx ihr =>
    refine leads_log_of_inside rfl ?_
    rw [inside_nest]
    simp only [run]
    by_cases hadmits : m.admitsCall = true
    · rw [if_pos hadmits, if_pos hadmits, Run.between_eq, finalMachine_onMachine]
      exact ((ihx _).congr (m.sameStore_withRegisters _)).last (Machine.sameStore_withRegisters _ _)
    · rw [if_neg hadmits, if_neg hadmits]
      exact ihr m
  | loop round start ih =>
    refine leads_log_of_inside rfl ?_
    exact Run.leads_rounds ih _ start m
  | ask request => exact leads_log_of_inside rfl (hask request m)

end

/-- The logs of answers lead from where these start to where they end, however deep requests are nested. -/
theorem Eval.answers_leads : ∀ n : Nat, (answers n).Leads (logs n)
  | 0 => fun _ m => .refl m.toState
  | n + 1 => fun request m => (serve request).leads_log (answers_leads n) m

theorem Eval.leads_logOn (x : Eval α) (m : Machine) :
    Log.Leads m.toState (x.logOn m) (finalMachine (x.runOn m)).toState :=
  x.leads_log (answers_leads nestingLimit) m

/-! ## 4. Host calls -/

namespace HostCall

open Session (restarted returned bound)

theorem leads_ofEval (x : Eval α) (m : Machine) :
    Log.Leads m.toState (x.logOn m) (finalMachine (Session.ofEval x m)).toState := by
  rw [Session.ofEval_eq, finalMachine_surfaced]
  exact x.leads_logOn m

theorem leads_runLog (p : Program) (m : Machine) :
    Log.Leads m.toState (runLog p m) (finalMachine (Session.run p m)).toState := by
  have hrestarted : m.toState.SameStore (restarted m).toState := ⟨rfl, rfl, rfl⟩
  have hexecute := ((Eval.execute p).leads_logOn (restarted m)).congr hrestarted
  rw [run_eq, runLog]
  cases hr : (Eval.execute p).runOn (restarted m) with
  | ok v m' =>
    rw [hr] at hexecute
    have hreturned : m'.toState.SameStore (returned m').toState := ⟨rfl, rfl, rfl⟩
    exact hexecute.append ((leads_ofEval (Eval.hideGlobal v) (returned m')).congr hreturned)
  | error s m' =>
    rw [hr] at hexecute
    rw [List.append_nil]
    have hreturned : m'.toState.SameStore (returned m').toState := ⟨rfl, rfl, rfl⟩
    cases s <;> exact hexecute.last hreturned

/-- The log of a host call leads from the machine before it to the one after it. -/
theorem leads_log (c : HostCall) (m : Machine) :
    Log.Leads m.toState (c.log m) (finalMachine (c.perform m)).toState := by
  cases c with
  | reset bindings options =>
    have hopened := leads_ofEval (Eval.openScopes bindings options.rootContext) m
    rw [reset_eq]
    cases hr : Session.ofEval (Eval.openScopes bindings options.rootContext) m with
    | ok opened m' =>
      rw [hr] at hopened
      exact hopened.last ⟨rfl, rfl, rfl⟩
    | error f m' =>
      rw [hr] at hopened
      exact hopened
  | evaluate source =>
    rw [evaluate_eq, log, Session.parse]
    cases htree : m.rules.treeOf source with
    | error f => exact .refl _
    | ok parsed =>
      have hcompile := (Eval.compileTree parsed.1 parsed.2).leads_logOn m
      dsimp only
      simp only [Session.ofEval]
      cases hr : (Eval.compileTree parsed.1 parsed.2).runOn m with
      | ok p m' =>
        rw [hr] at hcompile
        exact hcompile.append (leads_runLog p m')
      | error s m' =>
        rw [hr] at hcompile
        rw [List.append_nil]
        cases s <;> exact hcompile
  | run p => exact leads_runLog p m
  | call function receiver args =>
    have hrestarted : m.toState.SameStore (restarted m).toState := ⟨rfl, rfl, rfl⟩
    exact (leads_ofEval _ (restarted m)).congr hrestarted
  | construct function args =>
    have hrestarted : m.toState.SameStore (restarted m).toState := ⟨rfl, rfl, rfl⟩
    exact (leads_ofEval _ (restarted m)).congr hrestarted

/-- The log of host calls leads from the machine before them to the one after them. -/
theorem leads_logAll (calls : List HostCall) (m : Machine) :
    Log.Leads m.toState (logAll calls m) (performAll calls m).toState := by
  induction calls generalizing m with
  | nil => exact .refl _
  | cons c calls ih => exact (c.leads_log m).append (ih _)

end HostCall

/-! ## 5. Addresses are given away once -/

/-- The address that a change gives away. -/
def Update.taken? (s : State) {α : Type} : Update α → Option ObjectId
  | .allocate _ | .newFrame _ _ _ _ => some ⟨s.heap.size⟩
  | _ => none

/-- The address that an event gives away. -/
def Event.taken? : Event → Option ObjectId
  | .start (.update u) m => u.taken? m.toState
  | _ => none

theorem State.size_changeObject (s : State) (id : ObjectId) (f : Object → Object × α) :
    (s.changeObject id f).2.heap.size = s.heap.size := by
  simp [changeObject]

/-- A change gives away the next address, or leaves the size of the heap as it is. -/
theorem Update.size_apply (u : Update α) (s : State) :
    (u.apply s).2.heap.size = s.heap.size + (if (u.taken? s).isSome then 1 else 0) := by
  cases u with
  | allocate o => exact Array.size_push _
  | newFrame kind parent lexical held => exact Array.size_push _
  | object id f => exact s.size_changeObject id f
  | link id prototype => exact s.size_changeObject id _
  | names scope f => exact s.size_changeObject _ _
  | result v =>
    simp only [apply]
    split <;> rfl
  | _ => rfl

theorem Event.size_after (event : Event) :
    event.after.heap.size = event.machine.heap.size + (if event.taken?.isSome then 1 else 0) := by
  cases event with
  | finish x r => rfl
  | start x m =>
    cases x with
    | update u => exact u.size_apply m.toState
    | _ => rfl

/-- An event gives away the next address only. -/
theorem Event.index_of_taken (h : event.taken? = some id) : id.index = event.machine.heap.size := by
  cases event with
  | finish x r => cases h
  | start x m =>
    cases x with
    | update u => cases u <;> cases h <;> rfl
    | _ => cases h

namespace Log.Leads

variable {s s' : State} {l : Log}

/-- The heap never shrinks. -/
theorem size_le (h : Log.Leads s l s') :
    s.heap.size ≤ s'.heap.size ∧ ∀ event ∈ l, s.heap.size ≤ event.machine.heap.size := by
  refine h.invariant (I := fun t => s.heap.size ≤ t.heap.size) ?_ ?_ (Nat.le_refl _)
  · intro t t' hsame ht
    rwa [hsame.heap]
  · intro event _ ht
    rw [event.size_after]
    exact Nat.le_add_right_of_le ht

/-- What is given away on the way was not taken before, and is taken after it. -/
theorem taken_bounds (h : Log.Leads s l s') (he : event ∈ l) (hid : event.taken? = some id) :
    s.heap.size ≤ id.index ∧ id.index < s'.heap.size := by
  obtain ⟨before, rest, rfl⟩ := List.append_of_mem he
  obtain ⟨t, hbefore, hrest⟩ := h.split
  have hstart := hbefore.size_le.1
  have hend := hrest.2.size_le.1
  have hafter := event.size_after
  rw [hid] at hafter
  have hindex := Event.index_of_taken hid
  have hsame : event.machine.heap = t.heap := hrest.1.heap
  rw [hsame] at hafter hindex
  simp only [Option.isSome_some, if_true] at hafter
  omega

/-- **No address is given away twice.** -/
theorem taken_unique (h : Log.Leads s l s') {event' : Event} (he : event ∈ l) (he' : event' ∈ l)
    (hid : event.taken? = some id) (hid' : event'.taken? = some id) : event = event' := by
  obtain ⟨before, rest, rfl⟩ := List.append_of_mem he
  obtain ⟨t, hbefore, hrest⟩ := h.split
  have hindex := Event.index_of_taken hid
  have hsame : event.machine.heap = t.heap := hrest.1.heap
  rcases List.mem_append.mp he' with hearlier | hlater
  · have hbound := (hbefore.taken_bounds hearlier hid').2
    rw [hsame] at hindex
    omega
  rcases List.mem_cons.mp hlater with rfl | hlater
  · rfl
  · have hbound := (hrest.2.taken_bounds hlater hid').1
    have hafter := event.size_after
    rw [hid] at hafter
    simp only [Option.isSome_some, if_true] at hafter
    omega

end Log.Leads

/-! ## 6. Scopes and labels -/

/-- Whether an event opens a scope. -/
def Event.OpensScope : Event → Prop
  | .start (.update (.newScope _)) _ | .start (.update (.newFrame _ _ _ _)) _ => True
  | _ => False

/-- A change opens one scope or none. -/
theorem Update.scopes_le_apply (u : Update α) (s : State) : s.scopes.size ≤ (u.apply s).2.scopes.size := by
  cases u with
  | newScope scope | newFrame kind parent lexical held => exact Nat.le_of_lt (Nat.lt_of_lt_of_eq (Nat.lt_succ_self _) (Array.size_push _).symm)
  | unlock scope name => exact Nat.le_of_eq Array.size_modify.symm
  | result v =>
    simp only [apply]
    split <;> exact Nat.le_refl _
  | _ => exact Nat.le_refl _

/-- Which objects are protected is settled before any script runs. -/
theorem Update.labels_apply (u : Update α) (s : State) : (u.apply s).2.realm.labels = s.realm.labels := by
  cases u with
  | result v =>
    simp only [apply]
    split <;> rfl
  | _ => rfl

namespace Event

variable {event : Event}

theorem scopes_le_after (event : Event) : event.machine.scopes.size ≤ event.after.scopes.size := by
  cases event with
  | finish x r => exact Nat.le_refl _
  | start x m =>
    cases x with
    | update u => exact u.scopes_le_apply m.toState
    | _ => exact Nat.le_refl _

theorem scopes_lt_after (h : event.OpensScope) : event.machine.scopes.size < event.after.scopes.size := by
  unfold OpensScope at h
  split at h
  · exact Nat.lt_of_lt_of_eq (Nat.lt_succ_self _) (Array.size_push _).symm
  · exact Nat.lt_of_lt_of_eq (Nat.lt_succ_self _) (Array.size_push _).symm
  · exact h.elim

theorem labels_after (event : Event) : event.after.realm.labels = event.machine.realm.labels := by
  cases event with
  | finish x r => rfl
  | start x m =>
    cases x with
    | update u => exact u.labels_apply m.toState
    | _ => rfl

end Event

namespace Log.Leads

variable {s s' : State} {l : Log}

/-- No scope is ever closed. -/
theorem scopes_le (h : Log.Leads s l s') :
    s.scopes.size ≤ s'.scopes.size ∧ ∀ event ∈ l, s.scopes.size ≤ event.machine.scopes.size := by
  refine h.invariant (I := fun t => s.scopes.size ≤ t.scopes.size) ?_ ?_ (Nat.le_refl _)
  · intro t t' hsame ht
    rwa [hsame.scopes]
  · exact fun event _ ht => Nat.le_trans ht event.scopes_le_after

theorem scopes_lt_of_opens (h : Log.Leads s l s') (he : event ∈ l) (hopens : event.OpensScope) :
    event.machine.scopes.size < s'.scopes.size := by
  obtain ⟨before, rest, rfl⟩ := List.append_of_mem he
  obtain ⟨t, -, hrest⟩ := h.split
  exact Nat.lt_of_lt_of_le (Event.scopes_lt_after hopens) hrest.2.scopes_le.1

/-- The same objects are protected all along. -/
theorem labels_eq (h : Log.Leads s l s') : s'.realm.labels = s.realm.labels :=
  (h.invariant (I := fun t => t.realm.labels = s.realm.labels) (fun hsame ht => hsame.labels.trans ht)
    (fun event _ ht => event.labels_after.trans ht) rfl).1

end Log.Leads

end GuestScript
