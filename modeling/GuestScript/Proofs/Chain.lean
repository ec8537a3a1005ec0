import GuestScript.Proofs.Attempt

/-!
# How far an optional link reaches

A chain of members and calls is a `Link`. When an optional link of it finds `undefined` or `null` in front of it, the
chain is *skipped* from there to its outer end: its value is `undefined`, and nothing else of it is run, no key and no
argument (`Link.Skips`). The outer end is where the chain is used as code. Parentheses do not end a chain: in
`(a?.b).c`, which is one link inside another, the outer member is skipped too.

A chain that is not skipped does the same as the chain without its marks (`Link.plain`). The two cases together are
`Code.chain_does`. To delete an optional chain only runs it.
-/

namespace GuestScript

namespace Link

/-! ## 1. Skipped chains -/

/-- A chain with the same parts, none of which is optional. -/
def plain : Link → Link
  | .step position link => .step position link.plain
  | .member position object key _ => .member position object.plain key false
  | .callName position name arguments _ label => .callName position name arguments false label
  | .call position callee arguments _ label => .call position callee.plain arguments false label
  | .superMember position key => .superMember position key
  | .superCall position arguments => .superCall position arguments
  | .value code => .value code

/-- How a chain is skipped: from a machine, to another one, with some deeds. The first three rules are those of the
optional links, the others go on to the outer end of the chain. Every part of the chain around the link has counted its
step before that. -/
inductive Skips (n : Nat) : Link → Machine → Machine → Log → Prop where
  | member {position : Option Position} {object : Link} {key : PropertyName} {m m₁ m₂ : Machine} {base : Reference}
      {d₁ d₂ : Log} (hstep : (Eval.tick position).Does n m (.ok () m₁) d₁)
      (hbase : object.exec.Does n m₁ (.ok (some base) m₂) d₂) (hnone : base.value.isNullish = true) :
      Skips n (.member position object key true) m m₂ (d₁ ++ d₂)
  | call {position : Option Position} {callee : Link} {arguments : List (Code × Bool)} {label : String}
      {m m₁ m₂ : Machine} {base : Reference} {d₁ d₂ : Log} (hstep : (Eval.tick position).Does n m (.ok () m₁) d₁)
      (hbase : callee.exec.Does n m₁ (.ok (some base) m₂) d₂) (hnone : base.value.isNullish = true) :
      Skips n (.call position callee arguments true label) m m₂ (d₁ ++ d₂)
  | callName {position : Option Position} {name : String} {arguments : List (Code × Bool)} {label : String}
      {m m₁ m₂ : Machine} {scope : ScopeId} {function : Value} {d₁ d₂ : Log}
      (hstep : (Eval.tick position).Does n m (.ok () m₁) d₁)
      (hbase : (Eval.resolveValue name position).Does n m₁ (.ok (scope, function) m₂) d₂)
      (hnone : function.isNullish = true) : Skips n (.callName position name arguments true label) m m₂ (d₁ ++ d₂)
  | inStep {position : Option Position} {link : Link} {m m₁ m₂ : Machine} {d₁ d₂ : Log}
      (hstep : (Eval.tick position).Does n m (.ok () m₁) d₁) (h : Skips n link m₁ m₂ d₂) :
      Skips n (.step position link) m m₂ (d₁ ++ d₂)
  | inMember {position : Option Position} {object : Link} {key : PropertyName} {optional : Bool} {m m₁ m₂ : Machine}
      {d₁ d₂ : Log} (hstep : (Eval.tick position).Does n m (.ok () m₁) d₁) (h : Skips n object m₁ m₂ d₂) :
      Skips n (.member position object key optional) m m₂ (d₁ ++ d₂)
  | inCall {position : Option Position} {callee : Link} {arguments : List (Code × Bool)} {optional : Bool}
      {label : String} {m m₁ m₂ : Machine} {d₁ d₂ : Log} (hstep : (Eval.tick position).Does n m (.ok () m₁) d₁)
      (h : Skips n callee m₁ m₂ d₂) : Skips n (.call position callee arguments optional label) m m₂ (d₁ ++ d₂)

/-! ## 2. What a chain does -/

section

variable {n : Nat} {link : Link} {m m' : Machine} {r : EStateM.Result Stop Machine (Option Reference)} {d : Log}

/-- A skipped chain has no value, and does nothing after the optional link. -/
theorem Skips.does (h : link.Skips n m m' d) : link.exec.Does n m (.ok none m') d := by
  induction h with
  | member hstep hbase hnone =>
    refine hstep.bind (hbase.bind_nil ?_)
    simp only [hnone, Bool.and_self, if_true]
    exact Eval.does_pure n none _
  | call hstep hbase hnone =>
    refine hstep.bind (hbase.bind_nil ?_)
    simp only [hnone, Bool.and_self, if_true]
    exact Eval.does_pure n none _
  | callName hstep hbase hnone =>
    refine hstep.bind (hbase.bind_nil ?_)
    simp only [hnone, Bool.and_self, if_true]
    exact Eval.does_pure n none _
  | inStep hstep h ih => exact hstep.bind ih
  | inMember hstep h ih => exact hstep.bind (ih.bind_nil (Eval.does_pure n none _))
  | inCall hstep h ih => exact hstep.bind (ih.bind_nil (Eval.does_pure n none _))

/-- Whether an action has no run that ends without a value. -/
def NeverNone (n : Nat) (x : Eval (Option Reference)) : Prop :=
  ∀ m r d, x.Does n m r d → ∀ m', r ≠ .ok none m'

theorem neverNone_some (n : Nat) (v : Reference) : NeverNone n (pure (some v)) := by
  intro m r d h m' hr
  obtain ⟨rfl, -⟩ := h.unique (Eval.does_pure n (some v) m)
  cases hr

theorem neverNone_stop (n : Nat) (s : Stop) : NeverNone n (.stop s) := by
  intro m r d h m' hr
  rw [← h.result] at hr
  cases hr

theorem neverNone_bind {α : Type} {x : Eval α} {f : α → Eval (Option Reference)} (hf : ∀ a, NeverNone n (f a)) :
    NeverNone n (x >>= f) := by
  intro m r d h m' hr
  rcases h.of_bind with ⟨s, m₁, -, rfl⟩ | ⟨a, m₁, d₁, d₂, -, hlast, -⟩
  · cases hr
  · exact hf a m₁ r d₂ hlast m' hr

theorem neverNone_raise (n : Nat) (diagnostic : Diagnostic) (subject : String) (position : Option Position) :
    NeverNone n (Eval.raise diagnostic subject position) := by
  unfold Eval.raise
  split
  · exact neverNone_stop n _
  · exact neverNone_bind fun _ => neverNone_stop n _

theorem neverNone_superMember (position : Option Position) (key : PropertyName) :
    NeverNone n (superMember position key).exec :=
  neverNone_bind fun _ => neverNone_bind fun _ => neverNone_bind fun _ => neverNone_bind fun _ =>
    neverNone_bind fun _ => neverNone_bind fun _ => neverNone_some n _

theorem neverNone_superCall (position : Option Position) (arguments : List (Code × Bool)) :
    NeverNone n (superCall position arguments).exec := by
  refine neverNone_bind fun _ => neverNone_bind fun parent => ?_
  cases parent with
  | object id =>
    exact neverNone_bind fun _ => neverNone_bind fun _ => neverNone_bind fun _ => neverNone_some n _
  | _ => exact neverNone_raise n _ _ _

theorem neverNone_value (code : Code) : NeverNone n (value code).exec :=
  neverNone_bind fun _ => neverNone_some n _

/-- The end of a call by a name, from the scope and the function that were found for it. -/
theorem neverNone_callName {position : Option Position} {name : String} {args : List (Eval Completion × Bool)}
    {label : String} (scope : ScopeId) (function : Value) :
    NeverNone n (do
      let values ← Eval.arguments args #[]
      let s ← Eval.scopeAt scope
      if name == "eval" && (← Eval.isEvalText function) then
        let v ← Eval.evalByName s.kind values
        pure (some ⟨.undefined, v⟩)
      else
        let receiver := if s.kind = .withObject then .object s.data else .undefined
        let v ← Eval.callValue function receiver values label position
        pure (some ⟨.undefined, v⟩)) := by
  refine neverNone_bind fun _ => neverNone_bind fun _ => ?_
  split
  all_goals
    refine neverNone_bind fun _ => ?_
    split
    · exact neverNone_bind fun _ => neverNone_some n _
    · exact neverNone_bind fun _ => neverNone_some n _

/-- A part of a chain around another one, from what it does with the value of that one. -/
def extended (position : Option Position) (inner : Eval (Option Reference)) (optional : Bool)
    (rest : Reference → Eval (Option Reference)) : Eval (Option Reference) := do
  Eval.tick position
  match ← inner with
  | none => pure none
  | some base => if optional && base.value.isNullish then pure none else rest base

/-- What is known of a part inside goes on to the part around it, which first counts its step, then runs the inner
part, and looks at its own mark only when that one has a value. -/
theorem extended_skips_or_plain {position : Option Position} {inner : Link} {optional : Bool}
    {rest : Reference → Eval (Option Reference)} (hrest : ∀ base, NeverNone n (rest base))
    (hinner : ∀ {m r d}, inner.exec.Does n m r d →
      (∃ m', r = .ok none m' ∧ inner.Skips n m m' d) ∨ (inner.plain.exec.Does n m r d ∧ ∀ m', r ≠ .ok none m'))
    (h : (extended position inner.exec optional rest).Does n m r d) :
    (∃ m₁ m' d₁ d₂, r = .ok none m' ∧ d = d₁ ++ d₂ ∧ (Eval.tick position).Does n m (.ok () m₁) d₁ ∧
      (inner.Skips n m₁ m' d₂ ∨
        optional = true ∧ ∃ base, inner.exec.Does n m₁ (.ok (some base) m') d₂ ∧ base.value.isNullish = true)) ∨
    ((extended position inner.plain.exec false rest).Does n m r d ∧ ∀ m', r ≠ .ok none m') := by
  rcases h.of_bind with ⟨s, m₁, hstep, rfl⟩ | ⟨_, m₁, d₁, d₂, hstep, hbody, rfl⟩
  · exact .inr ⟨hstep.bind_error, fun _ h => nomatch h⟩
  rcases hbody.of_bind with ⟨s, m₂, hbase, rfl⟩ | ⟨base, m₂, d₂, d₃, hbase, hlast, rfl⟩
  · rcases hinner hbase with ⟨_, hr, -⟩ | ⟨hplain, -⟩
    · cases hr
    · exact .inr ⟨hstep.bind hplain.bind_error, fun _ h => nomatch h⟩
  rcases hinner hbase with ⟨_, hr, hskips⟩ | ⟨hplain, hvalue⟩
  · cases hr
    obtain ⟨rfl, rfl⟩ := hlast.unique (Eval.does_pure n none m₂)
    exact .inl ⟨m₁, m₂, d₁, d₂, rfl, by rw [List.append_nil], hstep, .inl hskips⟩
  cases base with
  | none => exact absurd rfl (hvalue m₂)
  | some base =>
    by_cases hnone : (optional && base.value.isNullish) = true
    · simp only [hnone, if_true] at hlast
      obtain ⟨rfl, rfl⟩ := hlast.unique (Eval.does_pure n none m₂)
      obtain ⟨hoptional, hnull⟩ := Bool.and_eq_true_iff.mp hnone
      exact .inl ⟨m₁, m₂, d₁, d₂, rfl, by rw [List.append_nil], hstep, .inr ⟨hoptional, base, hbase, hnull⟩⟩
    · simp only [hnone] at hlast
      exact .inr ⟨hstep.bind (hplain.bind hlast), hrest base m₂ r d₃ hlast⟩

/-- A run of a chain either skips it, or is a run of the chain without marks and has a value when it ends. -/
theorem skips_or_plain : ∀ (link : Link) {m : Machine} {r : EStateM.Result Stop Machine (Option Reference)} {d : Log},
    link.exec.Does n m r d →
      (∃ m', r = .ok none m' ∧ link.Skips n m m' d) ∨ (link.plain.exec.Does n m r d ∧ ∀ m', r ≠ .ok none m')
  | .value code, m, r, d, h => .inr ⟨h, neverNone_value code m r d h⟩
  | .superMember position key, m, r, d, h => .inr ⟨h, neverNone_superMember position key m r d h⟩
  | .superCall position arguments, m, r, d, h => .inr ⟨h, neverNone_superCall position arguments m r d h⟩
  | .step position link, m, r, d, h => by
    rcases Eval.Does.of_bind h with ⟨s, m₁, hstep, rfl⟩ | ⟨_, m₁, d₁, d₂, hstep, hlink, rfl⟩
    · exact .inr ⟨hstep.bind_error, fun _ h => nomatch h⟩
    rcases skips_or_plain link hlink with ⟨m₂, rfl, hskips⟩ | ⟨hplain, hvalue⟩
    · exact .inl ⟨m₂, rfl, .inStep hstep hskips⟩
    · exact .inr ⟨hstep.bind hplain, hvalue⟩
  | .member position object key optional, m, r, d, h => by
    have hrest (base : Reference) : NeverNone n (do
        let key ← key.eval
        let v ← Eval.getMember base.value key position
        pure (some ⟨base.value, v⟩)) := neverNone_bind fun _ => neverNone_bind fun _ => neverNone_some n _
    rcases extended_skips_or_plain hrest (skips_or_plain object) h with
      ⟨m₁, m', d₁, d₂, rfl, rfl, hstep, hskips | ⟨rfl, base, hbase, hnull⟩⟩ | hplain
    · exact .inl ⟨m', rfl, .inMember hstep hskips⟩
    · exact .inl ⟨m', rfl, .member hstep hbase hnull⟩
    · exact .inr hplain
  | .call position callee arguments optional label, m, r, d, h => by
    have hrest (base : Reference) : NeverNone n (do
        let values ← Eval.arguments (Code.arguments arguments) #[]
        let v ← Eval.callValue base.value base.receiver values label position
        pure (some ⟨.undefined, v⟩)) := neverNone_bind fun _ => neverNone_bind fun _ => neverNone_some n _
    rcases extended_skips_or_plain hrest (skips_or_plain callee) h with
      ⟨m₁, m', d₁, d₂, rfl, rfl, hstep, hskips | ⟨rfl, base, hbase, hnull⟩⟩ | hplain
    · exact .inl ⟨m', rfl, .inCall hstep hskips⟩
    · exact .inl ⟨m', rfl, .call hstep hbase hnull⟩
    · exact .inr hplain
  | .callName position name arguments optional label, m, r, d, h => by
    rcases Eval.Does.of_bind h with ⟨s, m₁, hstep, rfl⟩ | ⟨_, m₁, d₁, d₂, hstep, hrest, rfl⟩
    · exact .inr ⟨hstep.bind_error, fun _ h => nomatch h⟩
    rcases Eval.Does.of_bind hrest with ⟨s, m₂, hname, rfl⟩ | ⟨⟨scope, function⟩, m₂, d₂, d₃, hname, hlast, rfl⟩
    · exact .inr ⟨hstep.bind hname.bind_error, fun _ h => nomatch h⟩
    by_cases hnone : (optional && function.isNullish) = true
    · obtain ⟨rfl, hnull⟩ := Bool.and_eq_true_iff.mp hnone
      simp only [hnull, Bool.and_self, if_true] at hlast
      obtain ⟨rfl, rfl⟩ := hlast.unique (Eval.does_pure n none m₂)
      rw [List.append_nil]
      exact .inl ⟨m₂, rfl, .callName hstep hname hnull⟩
    · simp only [hnone] at hlast
      exact .inr ⟨hstep.bind (hname.bind hlast), neverNone_callName scope function m₂ r d₃ hlast⟩

end

end Link

/-! ## 3. Chains as code -/

section

variable {n : Nat} {link : Link} {m m' : Machine} {r : EStateM.Result Stop Machine (Option Reference)} {d : Log}

/-- The value of a chain: that of its link, and `undefined` for none. -/
def Reference.completion (base : Option Reference) : Completion :=
  .value ((base.map Reference.value).getD .undefined)

/-- What a chain comes to as code. -/
def chained : EStateM.Result Stop Machine (Option Reference) → EStateM.Result Stop Machine Completion
  | .ok base m => .ok (Reference.completion base) m
  | .error s m => .error s m

theorem does_chain (h : link.exec.Does n m r d) : (Code.chain link).exec.Does n m (chained r) d := by
  cases r with
  | error s m' => exact Eval.Does.bind_error h
  | ok base m' =>
    refine Eval.Does.bind_nil h ?_
    cases base with
    | none => exact Eval.does_pure n _ m'
    | some base => exact Eval.does_pure n _ m'

/-- **A chain is skipped, or does what it does without marks.** When an optional link of it finds `undefined` or
`null`, the whole chain around that link has the value `undefined` and does nothing more. When there is no such link on
the way, the marks make no difference. In both cases to delete the chain is to run it, with the value `true`. -/
theorem Code.chain_does (n : Nat) (link : Link) (m : Machine) :
    ((∃ m' d, link.Skips n m m' d ∧ (Code.chain link).exec.Does n m (.ok (.value .undefined) m') d) ∨
      ((∀ m' d, ¬ link.Skips n m m' d) ∧
        ∀ r d, (Code.chain link).exec.Does n m r d ↔ (Code.chain link.plain).exec.Does n m r d)) ∧
    ∀ position c m' d, (Code.chain link).exec.Does n m (.ok c m') d →
      (Code.unary .delete (.chain link) position).exec.Does n m (.ok (.value (.boolean true)) m') d := by
  constructor
  · obtain ⟨r, d, h⟩ := link.exec.exists_does n m
    rcases Link.skips_or_plain link h with ⟨m', rfl, hskips⟩ | ⟨hplain, hvalue⟩
    · exact .inl ⟨m', d, hskips, does_chain h⟩
    · refine .inr ⟨fun m' d' hskips => ?_, fun r' d' => ⟨fun h' => ?_, fun h' => ?_⟩⟩
      · exact hvalue m' (h.unique hskips.does).1
      · obtain ⟨rfl, rfl⟩ := h'.unique (does_chain h)
        exact does_chain hplain
      · obtain ⟨rfl, rfl⟩ := h'.unique (does_chain hplain)
        exact does_chain h
  · intro position c m' d h
    have hvalue : (Eval.valueOf (Code.chain link).exec).Does n m (.ok c.toValue m') d :=
      h.bind_nil (Eval.does_pure n _ m')
    exact hvalue.bind_nil ((Eval.does_pure n (Value.boolean true) m').bind_nil (Eval.does_pure n _ m'))

end

end GuestScript
