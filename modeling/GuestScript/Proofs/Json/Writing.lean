import GuestScript.Proofs.Json.Value

/-!
# Values as text

What `JSON.stringify` writes for a value that shows a document is given by the document alone
(`Json.scriptText`): the members of objects stand in the order in which objects list their names, indices first. This
needs that nothing is converted before it is written. Values that show documents have no functions, so a conversion
could only come from what they inherit (`State.ConvertsNothing`).

Each value that is written counts one step.
-/

namespace GuestScript

variable {α : Type} {entries : List (String × Value)} {id : ObjectId} {v : Value} {j : Json} {values : List Value}
  {members : List (String × Json)} {n : Nat}

/-! ## 1. The order of names -/

namespace Object

/-- The entries whose names are indices, each with its index. -/
def indexed {α : Type} (entries : List (String × α)) : List (Nat × String × α) :=
  entries.filterMap fun e => (Text.index? e.1).map fun i => (i, e)

/-- What is numbered, in ascending order. -/
def ascending {α : Type} (l : List (Nat × α)) : List (Nat × α) :=
  l.mergeSort fun a b => a.1 ≤ b.1

theorem map_ascending {β : Type} (g : α → β) (l : List (Nat × α)) :
    (ascending l).map (fun p => (p.1, g p.2)) = ascending (l.map fun p => (p.1, g p.2)) :=
  List.map_mergeSort fun _ _ _ _ => rfl

/-- Entries in the order in which an object lists their names: indices in ascending order, then the other names. -/
def listed {α : Type} (entries : List (String × α)) : List (String × α) :=
  (ascending (indexed entries)).map Prod.snd ++ entries.filter fun e => (Text.index? e.1).isNone

theorem listed_perm (entries : List (String × α)) : (listed entries).Perm entries := by
  have hindices : (indexed entries).map Prod.snd = entries.filter fun e => (Text.index? e.1).isSome := by
    induction entries with
    | nil => rfl
    | cons e entries ih =>
      cases h : Text.index? e.1 with
      | none => simpa [indexed, h] using ih
      | some i => simpa [indexed, h] using ih
  have hsorted := ((indexed entries).mergeSort_perm fun a b => a.1 ≤ b.1).map Prod.snd
  rw [hindices] at hsorted
  refine (hsorted.append_right _).trans ?_
  have hnot : (fun e : String × α => (Text.index? e.1).isNone) = fun e => !(Text.index? e.1).isSome := by
    funext e
    cases Text.index? e.1 <;> rfl
  rw [hnot]
  exact List.filter_append_perm _ entries

/-- The order does not hang on what stands under the names. -/
theorem listed_map {β : Type} (f : String × α → β) (entries : List (String × α)) :
    listed (entries.map fun e => (e.1, f e)) = (listed entries).map fun e => (e.1, f e) := by
  have hindices : indexed (entries.map fun e => (e.1, f e)) =
      (indexed entries).map fun p => (p.1, (p.2.1, f p.2)) := by
    rw [indexed, indexed, List.filterMap_map, List.map_filterMap]
    congr 1
    funext e
    cases h : Text.index? e.1 <;> simp [h]
  rw [listed, listed, hindices, ← map_ascending fun e : String × α => (e.1, f e), List.map_append, List.map_map,
    List.map_map, List.filter_map]
  rfl

/-- The order of names does not hang on what stands under them. -/
theorem map_fst_listed {β : Type} {entries : List (String × α)} {entries' : List (String × β)}
    (h : entries.map Prod.fst = entries'.map Prod.fst) :
    (listed entries).map Prod.fst = (listed entries').map Prod.fst := by
  have hunit {γ : Type} (l : List (String × γ)) :
      (listed l).map Prod.fst = (listed ((l.map Prod.fst).map fun name => (name, ()))).map Prod.fst := by
    have hmap := listed_map (fun _ : String × γ => ()) l
    rw [List.map_map]
    change _ = (listed (l.map fun e => (e.1, ()))).map Prod.fst
    rw [hmap, List.map_map]
    rfl
  rw [hunit, hunit entries', h]

theorem own?_ofEntries (entries : List (String × Value)) (name : String) :
    (ofEntries entries).own? (.string name) = (entries.lookup name).map Property.ordinary := by
  have hstored : (ofEntries entries).own? (.string name) = (ofEntries entries).stored? (.string name) := rfl
  rw [hstored, stored?_eq, ofEntries]
  clear hstored
  induction entries with
  | nil => rfl
  | cons e entries ih =>
    rw [List.map_cons, under?_cons, List.lookup_cons, ih]
    by_cases h : e.1 = name
    · simp [Key.same, h]
    · have h' : (name == e.1) = false := beq_eq_false_iff_ne.mpr (Ne.symm h)
      simp [Key.same, h, h']

/-- The string keys of a plain object. -/
theorem stringKeys_ofEntries (entries : List (String × Value)) :
    (ofEntries entries).stringKeys = (listed entries).map Prod.fst := by
  have hindices : (ofEntries entries).indexKeys =
      (ascending (indexed entries)).map fun p => (p.1, p.2.1) := by
    rw [map_ascending Prod.fst, indexed, List.map_filterMap, indexKeys, ofEntries, List.filterMap_map, ascending]
    congr 2
    funext e
    cases h : Text.index? e.1 <;> simp [h, Key.name?]
  have hnames : ∀ entries : List (String × Value), (ofEntries entries).nameKeys =
      (entries.filter fun e => (Text.index? e.1).isNone).map Prod.fst := by
    intro entries
    rw [nameKeys, ofEntries, List.filterMap_map]
    induction entries with
    | nil => rfl
    | cons e entries ih =>
      cases h : Text.index? e.1 <;> simpa [h, Key.name?, List.filterMap_cons, Option.filter] using ih
  have hstring : (ofEntries entries).stringKeys =
      (ofEntries entries).indexKeys.map Prod.snd ++ (ofEntries entries).nameKeys := by
    simp [stringKeys, ofEntries, text?]
  rw [hstring, hindices, hnames, listed, List.map_append, List.map_map, List.map_map]
  rfl

theorem enumerableNames_ofEntries (entries : List (String × Value)) :
    (ofEntries entries).enumerableNames = (listed entries).map Prod.fst := by
  rw [enumerableNames, stringKeys_ofEntries, List.filter_eq_self]
  intro name hname
  obtain ⟨e, he, rfl⟩ := List.mem_map.mp hname
  have hsome : entries.lookup e.1 ≠ none := by
    intro hnone
    rw [List.lookup_eq_none_iff] at hnone
    simpa using hnone e ((listed_perm entries).mem_iff.mp he)
  obtain ⟨v, hv⟩ := Option.ne_none_iff_exists'.mp hsome
  rw [isEnumerable, own?_ofEntries, hv]
  rfl

end Object

/-! ## 2. The text of a document -/

namespace Json

/-- What is written with a gap per level. -/
def styleOf (gap : String) : Eval.JsonStyle :=
  { gap := gap }

/-- What stands between the name and the value of a member. -/
def separator (gap : String) : String :=
  if gap.isEmpty then ":" else ": "

mutual

/-- The text that scripts write for a document. -/
def scriptText (gap indent : String) : Json → String
  | .null => "null"
  | .bool b => if b then "true" else "false"
  | .number n => if n.toFloat.isFinite then Number.text n.toFloat else "null"
  | .string s => quote s
  | .array items => (styleOf gap).wrap "[" "]" (scriptItems gap (indent ++ gap) items) indent
  | .object members =>
    (styleOf gap).wrap "\x7b" "\x7d"
      ((Object.listed (scriptMembers gap (indent ++ gap) members)).map fun e => quote e.1 ++ separator gap ++ e.2) indent

/-- The texts of items. -/
def scriptItems (gap indent : String) : List Json → List String
  | [] => []
  | j :: rest => scriptText gap indent j :: scriptItems gap indent rest

/-- The names of members with the texts of their values. -/
def scriptMembers (gap indent : String) : List (String × Json) → List (String × String)
  | [] => []
  | (name, j) :: rest => (name, scriptText gap indent j) :: scriptMembers gap indent rest

end

theorem scriptItems_eq (gap indent : String) (items : List Json) :
    scriptItems gap indent items = items.map (scriptText gap indent) := by
  induction items with
  | nil => rw [scriptItems, List.map_nil]
  | cons j items ih => rw [scriptItems, ih, List.map_cons]

theorem scriptMembers_eq (gap indent : String) (members : List (String × Json)) :
    scriptMembers gap indent members = members.map fun e => (e.1, scriptText gap indent e.2) := by
  induction members with
  | nil => rw [scriptMembers, List.map_nil]
  | cons e members ih => rw [scriptMembers, ih, List.map_cons]

/-- The texts of the members of an object, as the object lists them. -/
theorem listed_scriptMembers (gap indent : String) (members : List (String × Json)) :
    Object.listed (scriptMembers gap indent members) =
      (Object.listed members).map fun e => (e.1, scriptText gap indent e.2) := by
  rw [scriptMembers_eq, Object.listed_map fun e : String × Json => scriptText gap indent e.2]

end Json

/-! ## 3. What values inherit -/

/-- Whether the built-in objects that documents inherit from have no conversion for them. -/
structure State.ConvertsNothing (s : State) : Prop where
  object : (s.objectAt Intrinsic.objectPrototype.id).own? (.string "toJSON") = none
  objectEnds : (s.objectAt Intrinsic.objectPrototype.id).prototype = none
  array : (s.objectAt Intrinsic.arrayPrototype.id).own? (.string "toJSON") = none
  arrayNext : (s.objectAt Intrinsic.arrayPrototype.id).prototype = some Intrinsic.objectPrototype.id

namespace State

variable {s : State} {lo : Nat}

theorem lookupFrom_of_own {key : Key} {p : Property} (h : (s.objectAt id).own? key = some p) (fuel : Nat) :
    s.lookupFrom key (fuel + 1) id = some p := by
  rw [lookupFrom]
  simp only [h]

theorem lookupFrom_of_parent {parent : ObjectId} {key : Key} (h : (s.objectAt id).own? key = none)
    (hparent : (s.objectAt id).prototype = some parent) (fuel : Nat) :
    s.lookupFrom key (fuel + 1) id = s.lookupFrom key fuel parent := by
  rw [lookupFrom]
  simp only [h, hparent]

theorem lookupFrom_of_end {key : Key} (h : (s.objectAt id).own? key = none) (hend : (s.objectAt id).prototype = none)
    (fuel : Nat) : s.lookupFrom key (fuel + 1) id = none := by
  rw [lookupFrom]
  simp only [h, hend]

/-- A plain object has its own properties before all that it inherits. -/
theorem lookup?_ofEntries {name : String} (h : s.objectAt id = .ofEntries entries) (hv : entries.lookup name = some v) :
    s.lookup? id (.string name) = some (.ordinary v) := by
  refine lookupFrom_of_own ?_ _
  rw [h, Object.own?_ofEntries, hv, Option.map_some]

/-- A plain object without a conversion of its own has none. -/
theorem ConvertsNothing.lookup?_object (hs : s.ConvertsNothing) (h : s.objectAt id = .ofEntries entries)
    (hnone : entries.lookup "toJSON" = none) :
    s.lookup? id (.string "toJSON") = none := by
  have hlt : id.index < s.heap.size := lt_size_of_prototype (by simp [h, Object.ofEntries])
  obtain ⟨n, hn⟩ : ∃ n, s.heap.size = n + 1 := ⟨s.heap.size - 1, by omega⟩
  have hown : (s.objectAt id).own? (.string "toJSON") = none := by
    rw [h, Object.own?_ofEntries, hnone, Option.map_none]
  have hparent : (s.objectAt id).prototype = some Intrinsic.objectPrototype.id := by
    rw [h]
    rfl
  rw [lookup?, hn, lookupFrom_of_parent hown hparent]
  exact lookupFrom_of_end hs.object hs.objectEnds n

/-- An array has no conversion. -/
theorem ConvertsNothing.lookup?_array (hs : s.ConvertsNothing) {elements : Array Value}
    (h : s.objectAt id = .ofElements elements) : s.lookup? id (.string "toJSON") = none := by
  have hlt : Intrinsic.arrayPrototype.id.index < s.heap.size := lt_size_of_prototype (by simp [hs.arrayNext])
  obtain ⟨n, hn⟩ : ∃ n, s.heap.size = n + 2 := by
    have : Intrinsic.arrayPrototype.id.index = 9 := rfl
    exact ⟨s.heap.size - 2, by omega⟩
  have hown : (Object.ofElements elements).own? (.string "toJSON") = none := by
    have hname : ("toJSON" == "length") = false := by decide
    have hindex : Text.index? "toJSON" = none := by decide
    simp [Object.ofElements, Object.own?, Object.virtual?, Object.arrayProperty?, hname, hindex, Object.text?,
      Object.stored?]
  have hparent : (s.objectAt id).prototype = some Intrinsic.arrayPrototype.id := by
    rw [h]
    rfl
  rw [lookup?, hn, lookupFrom_of_parent (by rw [h, hown]) hparent,
    lookupFrom_of_parent hs.array hs.arrayNext]
  exact lookupFrom_of_end hs.object hs.objectEnds n

/-- A value that shows a document is no function. -/
theorem Shows.callable_eq_none (h : s.Shows lo j (.object id)) : (s.objectAt id).callable = none := by
  cases h with
  | array _ hobject _ => rw [hobject]; rfl
  | object _ _ hobject _ => rw [hobject]; rfl

/-- Nor is it a primitive in a wrapper. -/
theorem Shows.sort_eq (h : s.Shows lo j (.object id)) :
    (s.objectAt id).sort = .array ∨ (s.objectAt id).sort = .object := by
  cases h with
  | array _ hobject _ => exact .inl (by rw [hobject]; rfl)
  | object _ _ hobject _ => exact .inr (by rw [hobject]; rfl)

/-- Under each name of a document stands a value that shows what the document has there. -/
theorem Shows.lookup {names : List String} {js : List Json} (h : List.Forall₂ (s.Shows lo) js values) {name : String}
    (hv : (names.zip values).lookup name = some v) : ∃ j ∈ js, s.Shows lo j v := by
  obtain ⟨front, back, hsplit, -⟩ := List.lookup_eq_some_iff.mp hv
  have hmem : v ∈ values := (List.of_mem_zip (hsplit ▸ by simp : (name, v) ∈ names.zip values)).2
  obtain ⟨i, hi, hget⟩ := List.mem_iff_getElem.mp hmem
  have hi' : i < js.length := h.length_eq ▸ hi
  have hshows : s.Shows lo js[i] values[i] := h.get hi' hi
  exact ⟨js[i], List.getElem_mem hi', hget ▸ hshows⟩

/-- Under the name of a member stands a value that shows what the member has. -/
theorem Shows.lookup_member (h : List.Forall₂ (s.Shows lo) (members.map Prod.snd) values)
    (hnames : (members.map Prod.fst).Nodup) {e : String × Json} (he : e ∈ members) :
    ∃ v, ((members.map Prod.fst).zip values).lookup e.1 = some v ∧ s.Shows lo e.2 v := by
  induction members generalizing values with
  | nil => cases he
  | cons d members ih =>
    cases h with
    | @cons _ v _ values hd hrest =>
      rw [List.map_cons, List.nodup_cons] at hnames
      rw [List.map_cons, List.zip_cons_cons]
      rcases List.mem_cons.mp he with rfl | he
      · exact ⟨v, List.lookup_cons_self, hd⟩
      · have hne : (e.1 == d.1) = false :=
          beq_eq_false_iff_ne.mpr fun heq => hnames.1 (heq ▸ List.mem_map_of_mem he)
        obtain ⟨w, hlookup, hw⟩ := ih hrest hnames.2 he
        exact ⟨w, by rw [List.lookup_cons, hne]; exact hlookup, hw⟩

end State

/-! ## 4. Steps -/

namespace Machine

/-- The machine with more steps counted. -/
def advance (m : Machine) (n : Nat) : Machine :=
  { m with steps := m.steps + n }

theorem advance_advance (m : Machine) (n k : Nat) : (m.advance n).advance k = m.advance (n + k) := by
  simp [advance, Nat.add_assoc]

theorem advance_zero (m : Machine) : m.advance 0 = m := rfl

/-- Whether the limits allow that so many more steps are counted. -/
structure Affords (m : Machine) (n : Nat) : Prop where
  steps : m.steps + n ≤ m.limits.maxSteps
  time : m.limits.timeout = 0 ∨ m.steps + n ≤ m.limits.timeout * m.limits.pace

theorem Affords.mono {m : Machine} {k : Nat} (h : m.Affords n) (hk : k ≤ n) : m.Affords k where
  steps := by
    have := h.steps
    omega
  time := h.time.imp_right fun htime => by omega

/-- What is left after some of the steps. -/
theorem Affords.advance {m : Machine} {k : Nat} (h : m.Affords (n + k)) : (m.advance n).Affords k where
  steps := by
    have := h.steps
    simp only [Machine.advance]
    omega
  time := h.time.imp_right fun htime => by
    simp only [Machine.advance]
    omega

theorem charged_of_affords {m : Machine} (h : m.Affords (n + 1)) : m.charged = .ok () (m.advance 1) := by
  have htime : ¬ (0 < m.limits.timeout && m.limits.timeout * m.limits.pace ≤ m.steps) = true := by
    rw [Bool.and_eq_true, decide_eq_true_eq, decide_eq_true_eq]
    rintro ⟨hpositive, hover⟩
    rcases h.time with hzero | htime <;> omega
  have hsteps : ¬ m.limits.maxSteps < m.steps + 1 := by
    have := h.steps
    omega
  rw [charged, if_neg htime]
  simp only [hsteps, if_false]
  rfl

end Machine

namespace Eval

variable {answers : Answers} {m : Machine} {lo : Nat}

/-! ## 5. Writing values that show documents -/

theorem run_isCallable_of_shows (h : m.Shows lo j v) : (isCallable v).run answers m = .ok false m := by
  cases v with
  | object id =>
    have hcallable : (m.objectAt id).callable = none := h.callable_eq_none
    simp [isCallable, callable?, object, bind, pure, run, hcallable]
  | _ => rfl

/-- Nothing is converted. -/
theorem run_jsonConverted (hm : m.ConvertsNothing) (h : m.Shows lo j v) (name : String) :
    (jsonConverted name v).run answers m = .ok v m := by
  have hobject {id : ObjectId} {w : Value} (hget : (getNamed (.object id) "toJSON").run answers m = .ok w m)
      (hw : (isCallable w).run answers m = .ok false m) :
      (jsonConverted name (.object id)).run answers m = .ok (.object id) m := by
    rw [jsonConverted, if_pos (by rfl), run_bind_of_ok hget, run_bind_of_ok hw]
    rfl
  have hread {id : ObjectId} {p : Option Property} (hlookup : m.lookup? id (.string "toJSON") = p) :
      (getNamed (.object id) "toJSON").run answers m = (readProperty (.object id) p).run answers m := by
    rw [← hlookup]
    rfl
  cases h with
  | array hid hentry hitems => exact hobject (hread (hm.lookup?_array hentry)) (by rfl)
  | @object members id values hid hnames hentry hvalues =>
    cases hown : ((members.map Prod.fst).zip values).lookup "toJSON" with
    | none => exact hobject (hread (hm.lookup?_object hentry hown)) (by rfl)
    | some w =>
      obtain ⟨j, -, hw⟩ := State.Shows.lookup hvalues hown
      exact hobject (hread (State.lookup?_ofEntries hentry hown)) (run_isCallable_of_shows hw)
  | _ => rfl

/-- What is written for a value that shows a document is the value itself. -/
theorem run_jsonForm (hm : m.ConvertsNothing) (h : m.Shows lo j v) (gap name : String) (holder : Value) :
    (jsonForm (Json.styleOf gap) holder name v).run answers m = .ok v m := by
  have hreplaced : (jsonReplaced (Json.styleOf gap) holder name v).run answers m = .ok v m := rfl
  rw [jsonForm, run_bind_of_ok (run_jsonConverted hm h name), run_bind_of_ok hreplaced]
  cases v with
  | object id =>
    have hread : (object id).run answers m = .ok (m.objectAt id) m := rfl
    rw [jsonUnwrapped, run_bind_of_ok hread]
    rcases h.sort_eq with hsort | hsort <;> simp [hsort, pure, run]
  | _ => rfl

/-- Whether the text of a value is written, under any name and after any steps. -/
def WritesText (answers : Answers) (write : String → Value → Eval (Option String)) (m : Machine) (j : Json) (v : Value)
    (text : String) : Prop :=
  ∀ name k, (m.advance k).Affords j.size →
    (write name v).run answers (m.advance k) = .ok (some text) (m.advance (k + j.size))

variable {write : String → Value → Eval (Option String)} {text : Json → String}

/-- The items of an array are written one by one. -/
theorem run_jsonElements {items : List Json}
    (h : List.Forall₂ (fun j v => WritesText answers write m j v (text j)) items values) :
    ∀ (i : Nat) (acc : List String) (k : Nat), (m.advance k).Affords (Json.sizeOfItems items) →
      (jsonElements write values i acc).run answers (m.advance k) =
        .ok (acc.reverse ++ items.map text) (m.advance (k + Json.sizeOfItems items)) := by
  induction h with
  | nil =>
    intro i acc k _
    simp [jsonElements, pure, run]
  | @cons j v items values hj _ ih =>
    intro i acc k hbudget
    rw [Json.sizeOfItems_cons] at hbudget ⊢
    have hwrite := hj (toString i) k (hbudget.mono (Nat.le_add_right _ _))
    have hrest := hbudget.advance
    rw [Machine.advance_advance] at hrest
    rw [jsonElements, run_bind_of_ok hwrite, Option.getD_some, ih _ _ _ hrest, Nat.add_assoc]
    simp

/-- The members of an object are written one by one. -/
theorem run_jsonProperties {target : Value}
    (h : ∀ e ∈ members, ∃ v, (∀ k, (getNamed target e.1).run answers (m.advance k) = .ok v (m.advance k)) ∧ WritesText answers write m e.2 v (text e.2))
    (separator : String) :
    ∀ (acc : List String) (k : Nat), (m.advance k).Affords (Json.sizeOfMembers members) →
      (jsonProperties write target separator (members.map Prod.fst) acc).run answers (m.advance k) =
        .ok (acc.reverse ++ members.map fun e => Json.quote e.1 ++ separator ++ text e.2)
          (m.advance (k + Json.sizeOfMembers members)) := by
  induction members with
  | nil =>
    intro acc k _
    simp [jsonProperties, pure, run]
  | cons e members ih =>
    intro acc k hbudget
    rw [Json.sizeOfMembers_cons] at hbudget ⊢
    obtain ⟨v, hget, hwrites⟩ := h e (by simp)
    have hwrite := hwrites e.1 k (hbudget.mono (Nat.le_add_right _ _))
    have hrest := hbudget.advance
    rw [Machine.advance_advance] at hrest
    rw [List.map_cons, jsonProperties, run_bind_of_ok (hget k), run_bind_of_ok hwrite]
    simp only
    rw [ih (fun d hd => h d (by simp [hd])) _ _ hrest, Nat.add_assoc]
    simp

/-- A step is counted before a value is written. -/
theorem run_charge {k : Nat} (h : (m.advance k).Affords (n + 1)) :
    charge.run answers (m.advance k) = .ok () (m.advance (k + 1)) := by
  rw [← Machine.advance_advance]
  exact Machine.charged_of_affords h

/-- An object that is being written stands for more than what is written inside it. -/
theorem not_mem_around (h : m.Shows lo j (.object id)) {around : List ObjectId}
    (haround : ∀ id' ∈ around, ∃ d, m.Shows lo d (.object id') ∧ j.nesting < d.nesting) :
    ¬ around.contains id = true := by
  rw [List.contains_eq_mem, decide_eq_true_eq]
  intro hmem
  obtain ⟨d, hd, hlt⟩ := haround id hmem
  exact Nat.lt_irrefl _ (h.nesting_eq hd ▸ hlt)

theorem around_cons {i : Json} (h : m.Shows lo j (.object id)) {around : List ObjectId}
    (haround : ∀ id' ∈ around, ∃ d, m.Shows lo d (.object id') ∧ j.nesting < d.nesting) (hi : i.nesting < j.nesting) :
    ∀ id' ∈ id :: around, ∃ d, m.Shows lo d (.object id') ∧ i.nesting < d.nesting := by
  intro id' hid'
  rcases List.mem_cons.mp hid' with rfl | hid'
  · exact ⟨j, h, hi⟩
  · obtain ⟨d, hd, hlt⟩ := haround id' hid'
    exact ⟨d, hd, Nat.lt_trans hi hlt⟩

/-- Whether values that show a document are written as the text of the document, a step for each value in it. -/
def WritesShown (answers : Answers) (m : Machine) (lo : Nat) (gap : String) (j : Json) : Prop :=
  ∀ {v : Value} {fuel k : Nat} {around : List ObjectId} {indent : String} {holder : Value} {name : String},
    m.Shows lo j v → j.nesting < fuel →
    (∀ id ∈ around, ∃ d, m.Shows lo d (.object id) ∧ j.nesting < d.nesting) → (m.advance k).Affords j.size →
    (jsonProperty (Json.styleOf gap) fuel around indent holder name v).run answers (m.advance k) =
      .ok (some (Json.scriptText gap indent j)) (m.advance (k + j.size))

/-- An array is written if its items are. -/
theorem writesShown_array (hm : m.ConvertsNothing) {gap : String} {items : List Json}
    (ih : ∀ j ∈ items, WritesShown answers m lo gap j) : WritesShown answers m lo gap (.array items) := by
  rintro v (_ | fuel) k around indent holder name h hfuel haround hbudget
  · exact absurd hfuel (Nat.not_lt_zero _)
  rw [Json.size_array] at hbudget ⊢
  have hform : (jsonForm (Json.styleOf gap) holder name v).run answers (m.advance (k + 1)) =
      .ok v (m.advance (k + 1)) := run_jsonForm (m := m.advance (k + 1)) hm h gap name holder
  cases h with
  | @array _ id elements hid hobject hitems =>
    have hshows : m.Shows lo (.array items) (.object id) := .array hid hobject hitems
    have hread : (Eval.object id).run answers (m.advance (k + 1)) = .ok (.ofElements elements) (m.advance (k + 1)) :=
      congrArg (EStateM.Result.ok · (m.advance (k + 1))) hobject
    have hlist : (listOf (.object id)).run answers (m.advance (k + 1)) = .ok elements (m.advance (k + 1)) := by
      rw [listOf, run_bind_of_ok hread]
      rfl
    have hwrites : List.Forall₂ (fun j v => WritesText answers
        (jsonProperty (Json.styleOf gap) fuel (id :: around) (indent ++ gap) (.object id)) m j v
        (Json.scriptText gap (indent ++ gap) j)) items elements.toList := by
      refine List.forall₂_iff_zip.mpr ⟨hitems.length_eq, fun {j v} hmem => ?_⟩
      have hj : j ∈ items := (List.of_mem_zip hmem).1
      have hlt : j.nesting < (Json.array items).nesting := by
        rw [Json.nesting_array]
        exact Nat.lt_succ_of_le (Json.nesting_le_of_item hj)
      exact fun name k hk => ih j hj ((List.forall₂_iff_zip.mp hitems).2 hmem)
        (Nat.lt_of_lt_of_le hlt (Nat.le_of_lt_succ hfuel)) (around_cons hshows haround hlt) hk
    have hbudget' : (m.advance (k + 1)).Affords (Json.sizeOfItems items) := by
      rw [← Machine.advance_advance]
      exact Machine.Affords.advance (by rwa [Nat.add_comm])
    have hparts := run_jsonElements hwrites 0 [] (k + 1) hbudget'
    rw [jsonProperty, run_bind_of_ok (run_charge hbudget), run_bind_of_ok hform]
    simp only
    rw [run_bind_of_ok hread, if_neg (by simp [Object.ofElements]), if_neg (not_mem_around hshows haround),
      if_pos (by rfl), run_bind_of_ok hlist]
    rw [Json.scriptText, Json.scriptItems_eq, show k + (Json.sizeOfItems items + 1) = k + 1 + Json.sizeOfItems items by omega]
    exact run_bind_of_ok hparts

/-- An object is written if its members are. -/
theorem writesShown_object (hm : m.ConvertsNothing) {gap : String}
    (ih : ∀ e ∈ members, WritesShown answers m lo gap e.2) : WritesShown answers m lo gap (.object members) := by
  rintro v (_ | fuel) k around indent holder name h hfuel haround hbudget
  · exact absurd hfuel (Nat.not_lt_zero _)
  rw [Json.size_object] at hbudget ⊢
  have hform : (jsonForm (Json.styleOf gap) holder name v).run answers (m.advance (k + 1)) =
      .ok v (m.advance (k + 1)) := run_jsonForm (m := m.advance (k + 1)) hm h gap name holder
  cases h with
  | @object _ id values hid hnames hobject hvalues =>
    have hshows : m.Shows lo (.object members) (.object id) := .object hid hnames hobject hvalues
    have hread : (Eval.object id).run answers (m.advance (k + 1)) =
        .ok (.ofEntries ((members.map Prod.fst).zip values)) (m.advance (k + 1)) :=
      congrArg (EStateM.Result.ok · (m.advance (k + 1))) hobject
    have hlength : (members.map Prod.fst).length = values.length := by
      simpa using hvalues.length_eq
    have hlistedNames : (Object.ofEntries ((members.map Prod.fst).zip values)).enumerableNames =
        (Object.listed members).map Prod.fst := by
      rw [Object.enumerableNames_ofEntries]
      exact Object.map_fst_listed (List.map_fst_zip (Nat.le_of_eq hlength))
    have hwrites : ∀ e ∈ Object.listed members, ∃ v,
        (∀ k, (getNamed (.object id) e.1).run answers (m.advance k) = .ok v (m.advance k)) ∧
          WritesText answers (jsonProperty (Json.styleOf gap) fuel (id :: around) (indent ++ gap) (.object id)) m e.2 v
            (Json.scriptText gap (indent ++ gap) e.2) := by
      intro e he
      have hmem : e ∈ members := (Object.listed_perm members).mem_iff.mp he
      obtain ⟨v, hlookup, hv⟩ := State.Shows.lookup_member hvalues hnames hmem
      have hlt : e.2.nesting < (Json.object members).nesting := by
        rw [Json.nesting_object]
        exact Nat.lt_succ_of_le (Json.nesting_le_of_member hmem)
      refine ⟨v, fun k => ?_, fun name k hk => ih e hmem hv (Nat.lt_of_lt_of_le hlt (Nat.le_of_lt_succ hfuel))
        (around_cons hshows haround hlt) hk⟩
      have hlook : (lookup? id (.string e.1)).run answers (m.advance k) = .ok (some (.ordinary v)) (m.advance k) :=
        congrArg (EStateM.Result.ok · (m.advance k)) (State.lookup?_ofEntries hobject hlookup)
      rw [getNamed, get, run_bind_of_ok hlook]
      rfl
    have hbudget' : (m.advance (k + 1)).Affords (Json.sizeOfMembers (Object.listed members)) := by
      rw [Json.sizeOfMembers_perm (Object.listed_perm members), ← Machine.advance_advance]
      exact Machine.Affords.advance (by rwa [Nat.add_comm])
    have hparts := run_jsonProperties hwrites (Json.separator gap) [] (k + 1) hbudget'
    rw [Json.sizeOfMembers_perm (Object.listed_perm members)] at hparts
    rw [jsonProperty, run_bind_of_ok (run_charge hbudget), run_bind_of_ok hform]
    simp only
    rw [run_bind_of_ok hread, if_neg (by simp [Object.ofEntries]), if_neg (not_mem_around hshows haround),
      if_neg (by simp [Object.isArray, Object.ofEntries])]
    rw [Json.scriptText, Json.listed_scriptMembers, List.map_map, hlistedNames,
      show k + (Json.sizeOfMembers members + 1) = k + 1 + Json.sizeOfMembers members by omega]
    exact run_bind_of_ok hparts

/-- **A value that shows a document is written as the text of the document**, a step for each value in it. -/
theorem writesShown (hm : m.ConvertsNothing) (gap : String) (j : Json) : WritesShown answers m lo gap j := by
  induction j using Json.induction with
  | array items ih => exact writesShown_array hm ih
  | object members ih => exact writesShown_object hm ih
  | null | bool | number | string =>
    rintro v (_ | fuel) k around indent holder name h hfuel _ hbudget
    · exact absurd hfuel (Nat.not_lt_zero _)
    have hform : (jsonForm (Json.styleOf gap) holder name v).run answers (m.advance (k + 1)) =
        .ok v (m.advance (k + 1)) := run_jsonForm (m := m.advance (k + 1)) hm h gap name holder
    rw [jsonProperty, run_bind_of_ok (run_charge (n := 0) (by simpa [Json.size] using hbudget)), run_bind_of_ok hform]
    cases h
    simp [Json.scriptText, Json.size, pure, run]

/-- What is asked of the objects that documents inherit from still holds with more objects. -/
theorem convertsNothing_of_grows {m' : Machine} (hm : m.ConvertsNothing) (h : m.Grows m') : m'.ConvertsNothing := by
  have harray : Intrinsic.arrayPrototype.id.index < m.heap.size :=
    State.lt_size_of_prototype (by simp [hm.arrayNext])
  have hobject : Intrinsic.objectPrototype.id.index < m.heap.size := Nat.lt_of_le_of_lt (Nat.zero_le _) harray
  exact
    { object := by rw [h.objects _ hobject, hm.object]
      objectEnds := by rw [h.objects _ hobject, hm.objectEnds]
      array := by rw [h.objects _ harray, hm.array]
      arrayNext := by rw [h.objects _ harray, hm.arrayNext] }

/-- **The text of a value that shows a document is the text of the document.** No replacer and no wrapped space is
given. -/
theorem run_jsonText (hm : m.ConvertsNothing) (h : m.Shows lo j v) (hnesting : j.nesting < nestingLimit)
    (hbudget : m.Affords j.size) {replacer space : Value} (hreplacer : replacer.isObject = false)
    (hspace : space.isObject = false) :
    ∃ m', (jsonText v replacer space).run answers m = .ok (some (Json.scriptText (gapOf space) "" j)) m' ∧
      m.Grows { m' with steps := m.steps } ∧ m'.Shows lo j v := by
  have hstyle : (styleOf replacer).run answers m = .ok {} m := by
    cases replacer with
    | object => cases hreplacer
    | _ => rfl
  have hgap : (spaceOf space).run answers m = .ok space m := by
    cases space with
    | object => cases hspace
    | _ => rfl
  have hnew : newPlain.run answers m = .ok ⟨m.heap.size⟩ { m with heap := m.heap.push (.ofEntries []) } := rfl
  have hplace : (⟨m.heap.size⟩ : ObjectId).index < (m.heap.push (.ofEntries [])).size := by simp
  obtain ⟨m₁, hroot, hfills, -⟩ := fills_updated (m := { m with heap := m.heap.push (.ofEntries []) })
    (fun o => (o.insertValue "" v, ())) hplace
  have hgrows : m.Grows m₁ := hfills.grows_of_push
  have hmodify : (modifyObject ⟨m.heap.size⟩ fun o => o.insertValue "" v).run answers
      { m with heap := m.heap.push (.ofEntries []) } = .ok () m₁ := hroot
  have hshows : m₁.Shows lo j v := h.mono (fun id _ hid => hgrows.objects id hid) (Nat.le_refl _)
  have hbudget₁ : m₁.Affords j.size := by
    rw [hgrows.rest]
    exact ⟨hbudget.steps, hbudget.time⟩
  refine ⟨m₁.advance j.size, ?_, ?_, hshows⟩
  · rw [jsonText, run_bind_of_ok hstyle, run_bind_of_ok hgap, run_bind_of_ok hnew, run_bind_of_ok hmodify]
    have hwrites : (jsonProperty (Json.styleOf (gapOf space)) nestingLimit [] "" (.object ⟨m.heap.size⟩) "" v).run
        answers (m₁.advance 0) = .ok (some (Json.scriptText (gapOf space) "" j)) (m₁.advance (0 + j.size)) :=
      writesShown (convertsNothing_of_grows hm hgrows) (gapOf space) j hshows hnesting (by simp) hbudget₁
    rw [Machine.advance_zero, Nat.zero_add] at hwrites
    exact hwrites
  · rw [hgrows.rest]
    exact ⟨rfl, hgrows.size, hgrows.objects⟩

end Eval

end GuestScript
