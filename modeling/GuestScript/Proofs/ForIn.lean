import GuestScript.Proofs.Reach.Prototype

/-!
# What a loop over names visits

A loop over the names of an object looks at them once, before its first round: the names on the chain of prototypes, each
where it occurs first, without those that are not enumerable there (`State.namesOn`, `State.shownOn`). Then each of them
has a turn. A name that is gone by its turn is passed over, for all others there is a round, and the turns end with the
names or with a round that ends the loop (`NameLoop.Turns`).

So a name is visited exactly when it is one of these, no round before ended the loop, and it is still there at its turn
(`Code.forIn_visits`). What a round adds has no turn.
-/

namespace GuestScript

/-! ## 1. Names on a chain -/

namespace State

variable {s : State} {id p q : ObjectId} {ids : List ObjectId} {key : Key}

/-- The objects on a chain of prototypes that ends. -/
inductive Lineage (s : State) : ObjectId → List ObjectId → Prop where
  | last {id : ObjectId} (h : (s.objectAt id).prototype = none) : Lineage s id [id]
  | link {id p : ObjectId} {ids : List ObjectId} (h : (s.objectAt id).prototype = some p) (rest : Lineage s p ids) :
      Lineage s id (id :: ids)

/-- The names on a chain, each where it occurs first. -/
def namesOn (s : State) (ids : List ObjectId) : List String :=
  (ids.flatMap fun q => (s.objectAt q).stringKeys).eraseDups

/-- Whether a name is enumerable on the first object of a chain that has it. -/
def shownOn (s : State) (ids : List ObjectId) (name : String) : Bool :=
  (ids.find? fun q => (s.objectAt q).stringKeys.contains name).any fun q => (s.objectAt q).isEnumerable (.string name)

/-- Whether an object or one that it inherits from has a property. -/
def Finds (s : State) (id : ObjectId) (key : Key) : Prop :=
  ∃ q, (q = id ∨ s.Inherits id q) ∧ (s.objectAt q).hasOwn key = true

/-- A chain that does not come back to an object is a walk. -/
theorem Lineage.walk {start : ObjectId} (h : s.Lineage id ids) (hstart : ∀ p, s.Inherits id p → p ≠ start) :
    s.Walk start id ids := by
  induction h with
  | last h => exact .last fun p hp => by rw [h] at hp; cases hp
  | link h _ ih => exact .link h (hstart _ (.link h)) (ih fun p hp => hstart p (.step h hp))

/-- The objects on the heap that are on the chain of an object. -/
def OnHeap (s : State) (id : ObjectId) : Type :=
  {p : ObjectId // (p = id ∨ s.Inherits id p) ∧ p.index < s.heap.size}

theorem finite_onHeap (s : State) (id : ObjectId) : Finite (s.OnHeap id) :=
  .of_injective (fun p : s.OnHeap id => (⟨p.1.index, p.2.2⟩ : Fin s.heap.size)) fun _ _ hpq =>
    Subtype.ext (congrArg ObjectId.mk (congrArg Fin.val hpq))

theorem wellFounded_inherits (h : ∀ p, p = id ∨ s.Inherits id p → ¬ s.Inherits p p) :
    WellFounded (fun (p : s.OnHeap id) (q : s.OnHeap id) => s.Inherits q.1 p.1) := by
  have : Finite (s.OnHeap id) := s.finite_onHeap id
  have : IsTrans (s.OnHeap id) (fun p q => s.Inherits q.1 p.1) :=
    ⟨fun _ _ _ hpq hqr => hqr.trans hpq⟩
  have : Std.Irrefl (fun p q : s.OnHeap id => s.Inherits q.1 p.1) := ⟨fun p => h p.1 p.2.1⟩
  exact Finite.wellFounded_of_trans_of_irrefl _

/-- An object that is not there has no prototype. -/
theorem lineage_of_size_le (h : s.heap.size ≤ id.index) : s.Lineage id [id] :=
  .last (by rw [objectAt_of_size_le h]; rfl)

/-- A chain ends if it does not run into a circle: there are finitely many objects. -/
theorem exists_lineage (h : ∀ p, p = id ∨ s.Inherits id p → ¬ s.Inherits p p) : ∃ ids, s.Lineage id ids := by
  have habove : ∀ p : s.OnHeap id, ∃ ids, s.Lineage p.1 ids := fun p => by
    induction p using (wellFounded_inherits h).induction with
    | h p ih =>
    cases hp : (s.objectAt p.1).prototype with
    | none => exact ⟨_, .last hp⟩
    | some q =>
      rcases Nat.lt_or_ge q.index s.heap.size with hlt | hge
      · have hq : s.Inherits id q := p.2.1.elim (fun hsame => hsame ▸ .link hp) (·.trans (.link hp))
        obtain ⟨ids, hids⟩ := ih ⟨q, .inr hq, hlt⟩ (.link hp)
        exact ⟨_, .link hp hids⟩
      · exact ⟨_, .link hp (lineage_of_size_le hge)⟩
  rcases Nat.lt_or_ge id.index s.heap.size with hlt | hge
  · exact habove ⟨id, .inl rfl, hlt⟩
  · exact ⟨_, lineage_of_size_le hge⟩

/-! ## 2. The names that are shown -/

/-- Where each name is looked up, a name in front of a list only matters for itself. -/
theorem filter_lookup_cons {name : String} {enumerable : Bool} {listed : List (String × Bool)} {names : List String}
    (h : name ∉ names) :
    names.filter (fun other => (((name, enumerable) :: listed).lookup other).getD false) =
      names.filter fun other => (listed.lookup other).getD false := by
  refine List.filter_congr fun other hother => ?_
  rw [List.lookup_cons, beq_eq_false_iff_ne.mpr fun hsame : other = name => h (hsame ▸ hother)]

/-- What is noted of names, some of which were met before: each other one where it is listed first, if it is enumerable
there. -/
theorem foldl_noteName : ∀ (listed : List (String × Bool)) (met : Std.HashSet String) (shown : Array String),
    (listed.foldl (fun noted entry => noteName noted entry.1 entry.2) (met, shown)).2.toList =
      shown.toList ++ ((listed.map Prod.fst).filter (!met.contains ·)).eraseDups.filter fun name =>
        (listed.lookup name).getD false
  | [], met, shown => by simp
  | (name, enumerable) :: listed, met, shown => by
    rw [List.foldl_cons, List.map_cons, List.filter_cons]
    by_cases hmet : met.contains name = true
    · have hnew : name ∉ ((listed.map Prod.fst).filter (!met.contains ·)).eraseDups := by simp [hmet]
      rw [if_neg (by simp [hmet]), filter_lookup_cons hnew, noteName, if_pos hmet, foldl_noteName]
    · have hfresh : (!met.contains name) = true := by simpa using hmet
      have hnew : name ∉ ((listed.map Prod.fst).filter (!(met.insert name).contains ·)).eraseDups := by simp
      have hrest : ((listed.map Prod.fst).filter (!met.contains ·)).filter (fun other => !other == name) =
          (listed.map Prod.fst).filter (!(met.insert name).contains ·) := by
        rw [List.filter_filter]
        refine List.filter_congr fun other _ => ?_
        rw [Std.HashSet.contains_insert, Bool.not_or, Bool.beq_comm]
      rw [if_pos hfresh, List.eraseDups_cons, hrest, List.filter_cons, filter_lookup_cons hnew, noteName, if_neg hmet,
        foldl_noteName, List.lookup_cons, beq_self_eq_true]
      cases enumerable
      · simp
      · simp

/-- What is listed of an object under a name. -/
theorem lookup_listedNames (o : Object) (name : String) :
    o.listedNames.lookup name = if o.stringKeys.contains name then some (o.isEnumerable (.string name)) else none := by
  unfold Object.listedNames
  induction o.stringKeys with
  | nil => rfl
  | cons key keys ih =>
    rw [List.map_cons, List.lookup_cons, List.contains_cons, ih]
    cases h : name == key with
    | false => rfl
    | true =>
      cases eq_of_beq h
      rfl

/-- A name is looked up where it is listed first. -/
theorem lookup_listedNames_chain (s : State) (name : String) : ∀ ids : List ObjectId,
    ((ids.flatMap fun q => (s.objectAt q).listedNames).lookup name).getD false = s.shownOn ids name
  | [] => rfl
  | q :: ids => by
    rw [List.flatMap_cons, List.lookup_append, lookup_listedNames, shownOn, List.find?_cons]
    cases (s.objectAt q).stringKeys.contains name with
    | true => rfl
    | false => exact lookup_listedNames_chain s name ids

/-- **The names that a loop over names looks at**: those on the chain, each where it occurs first, if it is enumerable
there. -/
theorem enumerableNames?_of_lineage (h : s.Lineage id ids) (hstart : ∀ p, s.Inherits id p → p ≠ id) :
    ∃ names, s.enumerableNames? id = some names ∧ names.toList = (s.namesOn ids).filter (s.shownOn ids) := by
  have hchain : s.chain? id = some ids := chain?_eq_some_iff.mpr (h.walk hstart)
  have hlisted : (ids.flatMap fun q => (s.objectAt q).listedNames).map Prod.fst =
      ids.flatMap fun q => (s.objectAt q).stringKeys := by
    rw [List.map_flatMap]
    refine List.flatMap_congr fun q _ => ?_
    rw [Object.listedNames, List.map_map]
    exact List.map_id _
  refine ⟨shownNames (ids.flatMap fun q => (s.objectAt q).listedNames), by rw [enumerableNames?, hchain]; rfl, ?_⟩
  rw [shownNames, foldl_noteName, hlisted]
  simp [namesOn, lookup_listedNames_chain]

theorem nodup_eraseDups : ∀ names : List String, names.eraseDups.Nodup
  | [] => List.Pairwise.nil
  | name :: names => by
    rw [List.eraseDups_cons, List.nodup_cons]
    exact ⟨by simp [List.mem_eraseDups], nodup_eraseDups _⟩
termination_by names => names.length
decreasing_by simpa using Nat.lt_succ_of_le (List.length_filter_le _ _)

/-- A bounded search finds nothing but what is there. -/
theorem finds_of_lookupFrom : ∀ {fuel : Nat} {id : ObjectId}, (s.lookupFrom key fuel id).isSome = true → s.Finds id key
  | fuel + 1, id, h => by
    rw [lookupFrom_succ] at h
    cases hown : (s.objectAt id).own? key with
    | some _ => exact ⟨id, .inl rfl, by rw [Object.hasOwn, hown]; rfl⟩
    | none =>
      rw [hown] at h
      cases hparent : (s.objectAt id).prototype with
      | none => rw [hparent] at h; cases h
      | some parent =>
        rw [hparent] at h
        obtain ⟨q, hq, hkey⟩ := finds_of_lookupFrom h
        exact ⟨q, .inr (hq.elim (fun hsame => hsame ▸ .link hparent) (.step hparent)), hkey⟩

/-- An own property is found by a search from the object. -/
theorem lookupFrom_isSome_of_own (h : (s.objectAt id).hasOwn key = true) : (s.lookupFrom key 1 id).isSome = true := by
  rw [lookupFrom_succ]
  obtain ⟨p, hp⟩ := Option.isSome_iff_exists.mp h
  rw [hp]
  rfl

/-- What is found from the prototype of an object is found from the object. -/
theorem lookupFrom_isSome_of_parent {fuel : Nat} (hparent : (s.objectAt id).prototype = some p)
    (h : (s.lookupFrom key fuel p).isSome = true) : (s.lookupFrom key (fuel + 1) id).isSome = true := by
  rw [lookupFrom_succ, hparent]
  cases (s.objectAt id).own? key with
  | some _ => rfl
  | none => exact h

/-- What an object inherits is found by some search. -/
theorem exists_lookupFrom (h : s.Inherits id q) (hq : (s.objectAt q).hasOwn key = true) :
    ∃ fuel, (s.lookupFrom key fuel id).isSome = true := by
  induction h with
  | link h => exact ⟨2, lookupFrom_isSome_of_parent h (lookupFrom_isSome_of_own hq)⟩
  | step h _ ih =>
    obtain ⟨fuel, hfuel⟩ := ih hq
    exact ⟨fuel + 1, lookupFrom_isSome_of_parent h hfuel⟩

/-- **The search for a property is exact**: it finds what is on the object or on one that it inherits from. -/
theorem hasProperty_iff : s.hasProperty id key = true ↔ s.Finds id key := by
  refine ⟨finds_of_lookupFrom, fun ⟨q, hq, hkey⟩ => ?_⟩
  obtain ⟨fuel, hfuel⟩ : ∃ fuel, (s.lookupFrom key fuel id).isSome = true := by
    rcases hq with rfl | hinherits
    · exact ⟨1, lookupFrom_isSome_of_own hkey⟩
    · exact exists_lookupFrom hinherits hkey
  obtain ⟨p, hp⟩ := Option.isSome_iff_exists.mp hfuel
  have hmore := lookupFrom_mono (Nat.le_add_left fuel (s.heap.size + 1)) hp
  rw [← lookup?_eq (by omega) id key] at hmore
  rw [hasProperty, hmore]
  rfl

end State

/-! ## 3. Turns -/

/-- Whether a loop with some labels goes on after a round that came to a result. -/
def Completion.goesOn (labels : List String) : EStateM.Result Stop Machine Completion → Bool
  | .ok c _ =>
    match c.takeJump labels .empty with
    | .proceed _ => true
    | .leave _ => false
  | .error _ _ => false

namespace NameLoop

/-- The turn of a name: the machine at that time, and what the round came to, if there was one. -/
structure Turn where
  name : String
  machine : Machine
  round : Option (EStateM.Result Stop Machine Completion × Log)

namespace Turn

variable (t : Turn)

/-- The machine after a turn. -/
def after : Machine :=
  match t.round with
  | some (r, _) => finalMachine r
  | none => t.machine

/-- What was done in a turn. -/
def deeds : Log :=
  match t.round with
  | some (_, d) => d
  | none => []

/-- Whether a loop with some labels goes on after a turn. -/
def goesOn (labels : List String) : Bool :=
  match t.round with
  | some (r, _) => Completion.goesOn labels r
  | none => true

end Turn

/-- The names that there was a round for. -/
def visited (turns : List Turn) : List String :=
  (turns.filter fun t => t.round.isSome).map Turn.name

/-- The turns before that of a name. -/
def turnsBefore (name : String) (turns : List Turn) : List Turn :=
  turns.takeWhile fun t => t.name != name

/-- The machine after some turns. -/
def afterTurns (m : Machine) (turns : List Turn) : Machine :=
  turns.foldl (fun _ t => t.after) m

section

variable (m : Machine) (round : Option (EStateM.Result Stop Machine Completion × Log)) (turns : List Turn)

theorem turnsBefore_same (name : String) : turnsBefore name (⟨name, m, round⟩ :: turns) = [] := by
  simp [turnsBefore]

theorem turnsBefore_other {name other : String} (h : ¬ other = name) :
    turnsBefore name (⟨other, m, round⟩ :: turns) = ⟨other, m, round⟩ :: turnsBefore name turns := by
  simp [turnsBefore, h]

end

section

variable (name : String) (m : Machine) (round : EStateM.Result Stop Machine Completion × Log) (turns : List Turn)

@[simp] theorem visited_nil : visited [] = [] := rfl

@[simp] theorem afterTurns_nil : afterTurns m [] = m := rfl

@[simp] theorem visited_passed : visited (⟨name, m, none⟩ :: turns) = visited turns := rfl

@[simp] theorem visited_round : visited (⟨name, m, some round⟩ :: turns) = name :: visited turns := rfl

@[simp] theorem afterTurns_passed (m' : Machine) :
    afterTurns m' (⟨name, m, none⟩ :: turns) = afterTurns m turns := rfl

@[simp] theorem afterTurns_round (m' : Machine) :
    afterTurns m' (⟨name, m, some round⟩ :: turns) = afterTurns (finalMachine round.1) turns := rfl

@[simp] theorem Turn.goesOn_passed (labels : List String) : Turn.goesOn ⟨name, m, none⟩ labels = true := rfl

@[simp] theorem Turn.goesOn_round (labels : List String) :
    Turn.goesOn ⟨name, m, some round⟩ labels = Completion.goesOn labels round.1 := rfl

end

/-- The turns of names, for a loop with some labels over the names of an object. -/
inductive Turns (n : Nat) (labels : List String) (id : ObjectId) (round : String → Eval Completion) :
    List String → Machine → List Turn → Prop where
  /-- All names have had their turns. -/
  | none {m : Machine} : Turns n labels id round [] m []
  /-- A name that is gone is passed over. -/
  | passes {name : String} {names : List String} {m : Machine} {turns : List Turn}
      (hgone : ¬ m.Finds id (.string name)) (rest : Turns n labels id round names m turns) :
      Turns n labels id round (name :: names) m (⟨name, m, none⟩ :: turns)
  /-- For a name that is there, there is a round, and the next name has its turn after it. -/
  | goesOn {name : String} {names : List String} {m : Machine} {turns : List Turn}
      {r : EStateM.Result Stop Machine Completion} {d : Log} (hthere : m.Finds id (.string name))
      (hround : (round name).Does n m r d) (hr : Completion.goesOn labels r = true)
      (rest : Turns n labels id round names (finalMachine r) turns) :
      Turns n labels id round (name :: names) m (⟨name, m, some (r, d)⟩ :: turns)
  /-- No name has a turn after a round that ends the loop. -/
  | ends {name : String} {names : List String} {m : Machine} {r : EStateM.Result Stop Machine Completion} {d : Log}
      (hthere : m.Finds id (.string name)) (hround : (round name).Does n m r d)
      (hr : Completion.goesOn labels r = false) :
      Turns n labels id round (name :: names) m [⟨name, m, some (r, d)⟩]

section

variable {n : Nat} {labels : List String} {id : ObjectId} {round : String → Eval Completion} {names : List String}
  {m : Machine} {turns : List Turn}

/-- The names have their turns in order. -/
theorem Turns.inOrder (h : Turns n labels id round names m turns) : turns.map Turn.name <+: names := by
  induction h with
  | none => exact List.prefix_refl _
  | passes _ _ ih | goesOn _ _ _ _ ih => exact List.cons_prefix_cons.mpr ⟨rfl, ih⟩
  | ends _ _ _ => exact List.cons_prefix_cons.mpr ⟨rfl, List.nil_prefix⟩

theorem Turns.visited_sublist (h : Turns n labels id round names m turns) : (visited turns).Sublist names :=
  (List.filter_sublist.map _).trans h.inOrder.sublist

/-- **A name is visited** if the loop goes on after all turns before it, and it is there at its turn. -/
theorem Turns.mem_visited (h : Turns n labels id round names m turns) (hnodup : names.Nodup) {name : String}
    (hname : name ∈ names) :
    name ∈ visited turns ↔ (∀ t ∈ turnsBefore name turns, t.goesOn labels = true) ∧
      (afterTurns m (turnsBefore name turns)).Finds id (.string name) := by
  induction h with
  | none => cases hname
  | @passes first names m turns hgone rest ih =>
    obtain ⟨hnew, hnodup⟩ := List.nodup_cons.mp hnodup
    by_cases hfirst : first = name
    · subst hfirst
      rw [turnsBefore_same]
      exact iff_of_false (fun hmem => hnew (rest.visited_sublist.subset hmem)) fun hboth => hgone hboth.2
    · have hrest := ih hnodup ((List.mem_cons.mp hname).resolve_left fun hsame => hfirst hsame.symm)
      rw [turnsBefore_other _ _ _ hfirst]
      simpa using hrest
  | @goesOn first names m turns r d hthere hround hr rest ih =>
    by_cases hfirst : first = name
    · subst hfirst
      rw [turnsBefore_same]
      exact iff_of_true (by simp) ⟨by simp, hthere⟩
    · have hrest := ih (List.nodup_cons.mp hnodup).2 ((List.mem_cons.mp hname).resolve_left fun hsame => hfirst hsame.symm)
      rw [turnsBefore_other _ _ _ hfirst]
      simpa [hr, Ne.symm hfirst] using hrest
  | @ends first names m r d hthere hround hr =>
    by_cases hfirst : first = name
    · subst hfirst
      rw [turnsBefore_same]
      exact iff_of_true (by simp) ⟨by simp, hthere⟩
    · rw [turnsBefore_other _ _ _ hfirst]
      exact iff_of_false (by simpa using Ne.symm hfirst) (by simp [hr])

end

/-! ## 4. The loop -/

section

variable {n : Nat} {labels : List String} {id : ObjectId} {bind : Value → Eval Unit} {frame : LexicalFrame}
  {body : Eval Completion}

/-- Whether a round ends the loop does not depend on the rounds before. -/
theorem goesOn_ok (labels : List String) (c last : Completion) (m : Machine) :
    Completion.goesOn labels (.ok c m) = true ↔ ∃ next, c.takeJump labels last = .proceed next := by
  cases c with
  | jumpOut label => cases label <;> simp [Completion.goesOn, Completion.takeJump.eq_def]
  | jumpOn label =>
    cases label with
    | none => simp [Completion.goesOn, Completion.takeJump.eq_def]
    | some label => by_cases h : labels.contains label = true <;> simp_all [Completion.goesOn, Completion.takeJump.eq_def]
  | _ => simp [Completion.goesOn, Completion.takeJump.eq_def]

/-- **The rounds of the loop are turns of the names**, and the loop does nothing besides. -/
theorem turns_of_rounds : ∀ {names : List String} {last : Completion} {m : Machine}
    {r : EStateM.Result Stop Machine Completion} {d : Log},
    (Eval.forInRounds labels id bind frame body names last).Does n m r d →
      ∃ turns, Turns n labels id (Eval.forInRound bind frame body) names m turns ∧
        finalMachine r = afterTurns m turns ∧ d = turns.flatMap Turn.deeds
  | [], last, m, r, d, h => by
    obtain ⟨rfl, rfl⟩ := h.unique (Eval.does_pure n last m)
    exact ⟨[], .none, rfl, rfl⟩
  | name :: names, last, m, r, d, h => by
    have hread := h.of_read
    by_cases hthere : m.hasProperty id (.string name) = true
    · have hfinds := State.hasProperty_iff.mp hthere
      rw [if_pos hthere] at hread
      rcases hread.of_bind with ⟨s, m₁, hround, rfl⟩ | ⟨c, m₁, d₁, d₂, hround, hrest, rfl⟩
      · exact ⟨_, .ends hfinds hround rfl, rfl, by simp [Turn.deeds]⟩
      · cases hjump : c.takeJump labels last with
        | leave c' =>
          rw [hjump] at hrest
          obtain ⟨rfl, rfl⟩ := hrest.unique (Eval.does_pure n c' m₁)
          have hends : Completion.goesOn labels (.ok c m₁) = false := by
            rw [Bool.eq_false_iff, ne_eq, goesOn_ok labels c last m₁, hjump]
            simp
          exact ⟨_, .ends hfinds hround hends, rfl, by simp [Turn.deeds]⟩
        | proceed last' =>
          rw [hjump] at hrest
          obtain ⟨turns, hturns, hafter, rfl⟩ := turns_of_rounds hrest
          exact ⟨_, .goesOn hfinds hround ((goesOn_ok labels c last m₁).mpr ⟨_, hjump⟩) hturns, hafter,
            by simp [Turn.deeds]⟩
    · rw [if_neg hthere] at hread
      obtain ⟨turns, hturns, hafter, rfl⟩ := turns_of_rounds hread
      exact ⟨_, .passes (fun hfinds => hthere (State.hasProperty_iff.mpr hfinds)) hturns, hafter,
        by simp [Turn.deeds]⟩

/-- A loop over the names of an object comes to what its rounds come to. -/
theorem rounds_of_loop {object : Eval Completion} {m m₁ m₂ : Machine} {v : Value} {names : Array String}
    {r : EStateM.Result Stop Machine Completion} {d d₁ d₂ : Log}
    (hobject : (Eval.valueOf object).Does n m (.ok v m₁) d₁) (hv : v.isNullish = false)
    (hid : (Eval.toObject v).Does n m₁ (.ok id m₂) d₂) (hnames : m₂.enumerableNames? id = some names)
    (h : (Eval.forIn labels object bind frame body).Does n m r d) :
    ∃ d₃, (Eval.forInRounds labels id bind frame body names.toList .empty).Does n m₂ r d₃ ∧ d = d₁ ++ d₂ ++ d₃ := by
  obtain ⟨d', hrest, rfl⟩ := hobject.rest h
  rw [hv, if_neg (by decide)] at hrest
  obtain ⟨d₃, hloop, rfl⟩ := hid.rest hrest
  have hlisted : (Eval.enumerableNames id).Does n m₂ (.ok names m₂) [] := by
    refine (Eval.does_read n (fun s => s.enumerableNames? id) m₂).bind_nil ?_
    rw [hnames]
    exact Eval.does_pure n names m₂
  obtain ⟨d₃, hrounds, rfl⟩ := hlisted.rest hloop
  exact ⟨d₃, hrounds, by simp⟩

end

end NameLoop

open NameLoop in
/-- **What a loop over names visits.** Let the chain of an object not run into a circle when the loop starts. A name is
visited if and only if its first object on the chain shows it, no round before ended the loop, and it is still there at
its turn. The names have their turns in the order in which they occur on the chain, and there is a round for a name at
most once, with the name as a string. The loop does nothing else. -/
theorem Code.forIn_visits {n : Nat} {labels : List String} {target : Pattern} {frame : LexicalFrame} {object body : Code}
    {m m₁ m₂ : Machine} {v : Value} {id : ObjectId} {r : EStateM.Result Stop Machine Completion} {d d₁ d₂ : Log}
    (hobject : (Eval.valueOf object.exec).Does n m (.ok v m₁) d₁) (hv : v.isNullish = false)
    (hid : (Eval.toObject v).Does n m₁ (.ok id m₂) d₂)
    (hacyclic : ∀ p, p = id ∨ m₂.Inherits id p → ¬ m₂.Inherits p p)
    (hrun : (Code.forIn labels target frame object body).exec.Does n m r d) :
    ∃ ids turns, m₂.Lineage id ids ∧
      Turns n labels id (Eval.forInRound target.bind frame body.exec) ((m₂.namesOn ids).filter (m₂.shownOn ids)) m₂
        turns ∧
      finalMachine r = afterTurns m₂ turns ∧ d = d₁ ++ d₂ ++ turns.flatMap Turn.deeds ∧
      (visited turns).Nodup ∧ (visited turns).Sublist (m₂.namesOn ids) ∧
      ∀ name, name ∈ visited turns ↔
        name ∈ m₂.namesOn ids ∧ m₂.shownOn ids name = true ∧
          (∀ t ∈ turnsBefore name turns, t.goesOn labels = true) ∧
          (afterTurns m₂ (turnsBefore name turns)).Finds id (.string name) := by
  have hstart : ∀ p, m₂.Inherits id p → p ≠ id := fun p hp hsame => hacyclic id (.inl rfl) (hsame ▸ hp)
  obtain ⟨ids, hids⟩ := State.exists_lineage hacyclic
  obtain ⟨names, hnames, hlist⟩ := State.enumerableNames?_of_lineage hids hstart
  have hnodup : ((m₂.namesOn ids).filter (m₂.shownOn ids)).Nodup := (State.nodup_eraseDups _).filter _
  obtain ⟨d₃, hrounds, rfl⟩ := rounds_of_loop hobject hv hid hnames hrun
  rw [hlist] at hrounds
  obtain ⟨turns, hturns, hafter, rfl⟩ := turns_of_rounds hrounds
  have hsublist := hturns.visited_sublist
  refine ⟨ids, turns, hids, hturns, hafter, rfl, hnodup.sublist hsublist, hsublist.trans List.filter_sublist,
    fun name => ?_⟩
  by_cases hname : name ∈ (m₂.namesOn ids).filter (m₂.shownOn ids)
  · obtain ⟨hon, hshown⟩ := List.mem_filter.mp hname
    simp only [hturns.mem_visited hnodup hname, hon, hshown, true_and]
  · refine iff_of_false (fun hmem => hname (hsublist.subset hmem)) fun hall => ?_
    exact hname (List.mem_filter.mpr ⟨hall.1, hall.2.1⟩)

/-- A machine whose receiver has the names `a` and, hidden, `b`, and inherits `b` and `c`. -/
def namesMachine : Machine :=
  { heap := #[
      { properties := #[(.string "b", .ordinary .undefined), (.string "c", .ordinary .undefined)] },
      { properties := #[(.string "a", .ordinary .undefined), (.string "b", .hidden .undefined)]
        prototype := some ⟨0⟩ }]
    receiver := .object ⟨1⟩ }

theorem namesMachine_inherits {id p : ObjectId} (h : namesMachine.Inherits id p) : p = ⟨0⟩ ∧ id ≠ ⟨0⟩ := by
  have hlink {id p : ObjectId} (h : (namesMachine.objectAt id).prototype = some p) : p = ⟨0⟩ ∧ id ≠ ⟨0⟩ := by
    obtain ⟨_ | _ | i⟩ := id
    · cases h
    · cases h
      exact ⟨rfl, by simp⟩
    · cases h
  induction h with
  | link h => exact hlink h
  | step h _ ih => exact ⟨ih.1, (hlink h).2⟩

theorem namesMachine_lineage {ids : List ObjectId} (h : namesMachine.Lineage ⟨1⟩ ids) : ids = [⟨1⟩, ⟨0⟩] := by
  cases h with
  | last h => cases h
  | link h rest =>
    cases h
    cases rest with
    | last _ => rfl
    | link h _ => cases h

theorem namesMachine_this : (Eval.valueOf Code.this.exec).Does 1 namesMachine (.ok (.object ⟨1⟩) namesMachine) [] := by
  have hhide : (Eval.hideGlobal (.object ⟨1⟩)).Does 1 namesMachine (.ok (.object ⟨1⟩) namesMachine) [] :=
    Eval.does_read 1 (fun s => if ⟨1⟩ = (s.scopeAt s.superScope).data then Value.undefined else .object ⟨1⟩)
      namesMachine
  have hthis : Eval.this.Does 1 namesMachine (.ok (.value (.object ⟨1⟩)) namesMachine) [] :=
    (Eval.does_read 1 (fun s => s.receiver) namesMachine).bind_nil (hhide.bind_nil (Eval.does_pure 1 _ _))
  exact hthis.bind_nil (Eval.does_pure 1 _ _)

open NameLoop in
/-- A loop over the names of the receiver: `a` and `c` are to be visited. -/
theorem forIn_visits_pair : ∃ r d ids turns,
    (Code.forIn [] (.name .assign "k" none) [] .this .empty).exec.Does 1 namesMachine r d ∧
      namesMachine.Lineage ⟨1⟩ ids ∧ (namesMachine.namesOn ids).filter (namesMachine.shownOn ids) = ["a", "c"] ∧
      Turns 1 [] ⟨1⟩ (Eval.forInRound (Pattern.name .assign "k" none).bind [] Code.empty.exec) ["a", "c"] namesMachine
        turns ∧
      finalMachine r = afterTurns namesMachine turns ∧ d = turns.flatMap Turn.deeds ∧
      (visited turns).Nodup ∧ (visited turns).Sublist (namesMachine.namesOn ids) ∧
      ∀ name, name ∈ visited turns ↔
        name ∈ namesMachine.namesOn ids ∧ namesMachine.shownOn ids name = true ∧
          (∀ t ∈ turnsBefore name turns, t.goesOn [] = true) ∧
          (afterTurns namesMachine (turnsBefore name turns)).Finds ⟨1⟩ (.string name) := by
  obtain ⟨r, d, hrun⟩ := Eval.exists_does 1 (Code.forIn [] (.name .assign "k" none) [] .this .empty).exec namesMachine
  obtain ⟨ids, turns, hids, hturns, hends, hdeeds, hnodup, hsublist, hvisited⟩ :=
    Code.forIn_visits namesMachine_this rfl ⟨rfl, rfl⟩
      (fun p _ hself => (namesMachine_inherits hself).2 (namesMachine_inherits hself).1) hrun
  have hnames : (namesMachine.namesOn ids).filter (namesMachine.shownOn ids) = ["a", "c"] := by
    rw [namesMachine_lineage hids]
    decide +kernel
  exact ⟨r, d, ids, turns, hrun, hids, hnames, hnames ▸ hturns, hends, hdeeds, hnodup, hsublist, hvisited⟩

end GuestScript
