import GuestScript.Proofs.Sorting

/-!
# Global matching

The functions on texts that match an expression everywhere search a text with a place of their own. Scripts can do the
same with `exec`, which reads and writes the place in the object, as the number `lastIndex`. Both find the same matches
(`StringMethod.global_matching`).

* `Regex.Subject` is searched by characters, and places are counted in units: a place inside of a character stands for
  the end of that character (`Subject.charAt_spec`). What is asked of the search is that it finds a piece of the text
  that does not start before the place (`Program.Searches`).
* `Machine.Global` is an object whose `lastIndex` can be read and written; that never runs code of the script.
* After every match, the next search starts at least one unit later, so the end of the text is passed at last
  (`Eval.executes_findAll`).

Places are below `2 ^ 53`, so that a double holds them exactly.
-/

namespace GuestScript

/-! ## 1. Units -/

namespace Text

/-- How many units some characters have. -/
def unitCount (cs : List Char) : Nat :=
  (cs.map charSize).sum

theorem unitCount_append (cs ds : List Char) : unitCount (cs ++ ds) = unitCount cs + unitCount ds := by
  simp [unitCount]

theorem foldl_charSize (cs : List Char) (n : Nat) : cs.foldl (fun n c => n + charSize c) n = n + unitCount cs := by
  induction cs generalizing n with
  | nil => rfl
  | cons c cs ih =>
    rw [List.foldl_cons, ih, Nat.add_assoc]
    rfl

theorem size_eq (s : String) : size s = unitCount s.toList := by
  rw [size]
  split
  case isTrue h =>
    have hone : s.toList.map charSize = s.toList.map fun _ => 1 := List.map_congr_left fun c hc => by
      have := small_of_isAscii h c hc
      rw [charSize, if_pos (by omega)]
    rw [unitCount, hone, List.map_const', List.sum_replicate, ← eq_of_beq h, smul_eq_mul, Nat.mul_one,
      String.length_toList]
  case isFalse => rw [String.foldl_eq_foldl_toList, foldl_charSize, Nat.zero_add]

end Text

namespace Regex.Subject

open Text (unitCount)

variable {s : Subject}

theorem unitsBefore_ofText (t : String) {i : Nat} (hi : i ≤ t.toList.length) :
    (ofText t).unitsBefore i = unitCount (t.toList.take i) := by
  have hoffsets : ∀ (cs ds : List Char) (acc : Array Nat), acc.size = ds.length + 1 → acc.back? = some (unitCount ds) →
      (∀ i ≤ ds.length, acc.getD i 0 = unitCount (ds.take i)) → ∀ i ≤ (ds ++ cs).length,
        (cs.foldl (fun acc c => acc.push (acc.back?.getD 0 + Text.charSize c)) acc).getD i 0 =
          unitCount ((ds ++ cs).take i) := by
    intro cs
    induction cs with
    | nil =>
      intro ds acc _ _ h
      simpa using h
    | cons c cs ih =>
      intro ds acc hsize hback h i hi
      have hsplit : ds ++ c :: cs = ds ++ [c] ++ cs := by simp
      rw [List.foldl_cons, hsplit]
      rw [hsplit] at hi
      refine ih _ _ (by simp [hsize]) (by simp [hback, Text.unitCount]) (fun j hj => ?_) i hi
      rw [List.length_append, List.length_singleton] at hj
      rcases Nat.lt_or_eq_of_le hj with hlt | rfl
      · have hle : j ≤ ds.length := by omega
        rw [List.take_append_of_le_length hle, ← h j hle]
        simp [Array.getElem?_push, show j ≠ acc.size by omega]
      · rw [List.take_of_length_le (by simp), Text.unitCount_append, ← hsize]
        simp [hback, Text.unitCount]
  have h := hoffsets t.toList [] #[0] rfl rfl (fun i hi => by simp at hi; subst hi; rfl) i hi
  simpa [ofText, unitsBefore] using h

theorem size_ofText (t : String) : (ofText t).chars.size = t.toList.length := rfl

/-- The characters before a place have no more units than those before a later one. -/
theorem unitsBefore_mono (t : String) {i j : Nat} (hij : i ≤ j) (hj : j ≤ (ofText t).chars.size) :
    (ofText t).unitsBefore i ≤ (ofText t).unitsBefore j := by
  rw [unitsBefore_ofText t (Nat.le_trans hij hj), unitsBefore_ofText t hj, ← List.take_append_drop i (t.toList.take j),
    List.take_take, Nat.min_eq_left hij, Text.unitCount_append]
  exact Nat.le_add_right _ _

theorem unitsBefore_end (t : String) : (ofText t).unitsBefore (ofText t).chars.size = Text.size t := by
  rw [unitsBefore_ofText t (i := (ofText t).chars.size) (Nat.le_refl _), Text.size_eq, size_ofText, List.take_length]

/-- The search for a place ends with one that has enough units before it. -/
theorem searchUnits_spec {units : Nat} : ∀ (fuel low high : Nat), high - low < fuel → low ≤ high →
    units ≤ s.unitsBefore high →
      s.searchUnits units fuel low high ≤ high ∧ units ≤ s.unitsBefore (s.searchUnits units fuel low high)
  | 0, _, _, hfuel, _, _ => absurd hfuel (Nat.not_lt_zero _)
  | fuel + 1, low, high, hfuel, hle, hhigh => by
    rw [searchUnits]
    split
    case isFalse h =>
      obtain rfl : low = high := by omega
      exact ⟨Nat.le_refl _, hhigh⟩
    case isTrue hlt =>
      dsimp only
      split
      case isTrue => exact searchUnits_spec fuel _ _ (by omega) (by omega) hhigh
      case isFalse hmiddle =>
        have ⟨h₁, h₂⟩ := searchUnits_spec fuel low ((low + high) / 2) (by omega) (by omega) (Nat.le_of_not_lt hmiddle)
        exact ⟨by omega, h₂⟩

theorem charAt_spec {units : Nat} (h : units ≤ s.unitsBefore s.chars.size) :
    s.charAt units ≤ s.chars.size ∧ units ≤ s.unitsBefore (s.charAt units) :=
  searchUnits_spec _ _ _ (by omega) (Nat.zero_le _) h

end Regex.Subject

/-! ## 2. Matches that follow on each other -/

namespace Regex

open Text (unitCount)

/-- Whether the search of a program from a character on finds pieces of the text that do not start before it. -/
def Program.Searches (p : Program) (s : Subject) : Prop :=
  ∀ k ≤ s.chars.size, ∀ slots, p.find? s k = some slots →
    ∃ a b, slots[0]? = some (some a) ∧ slots[1]? = some (some b) ∧ k ≤ a ∧ a ≤ b ∧ b ≤ s.chars.size

/-- Whether a match takes whole characters of a text: some stand before it, and some more end with it. -/
def Match.Cuts (m : Match) (t : String) : Prop :=
  ∃ a b, a ≤ b ∧ b ≤ t.toList.length ∧ m.start = unitCount (t.toList.take a) ∧ m.stop = unitCount (t.toList.take b)

/-- Where the next search starts after a match. -/
def Match.next (m : Match) : Nat :=
  if m.stop = m.start then m.stop + 1 else m.stop

variable {p : Program} {t : String}

/-- A match that is found from a number of units on does not start before it, and takes whole characters. -/
theorem Program.findAt?_spec (hp : p.Searches (.ofText t)) {start : Nat} {m : Match} (hstart : start ≤ Text.size t)
    (h : p.findAt? (.ofText t) start = some m) :
    start ≤ m.start ∧ m.start ≤ m.stop ∧ m.stop ≤ Text.size t ∧ m.Cuts t := by
  obtain ⟨slots, hslots, rfl⟩ := Option.map_eq_some_iff.mp h
  rw [← Subject.unitsBefore_end] at hstart ⊢
  obtain ⟨hle, hunits⟩ := Subject.charAt_spec hstart
  obtain ⟨a, b, ha, hb, hka, hab, hbs⟩ := hp _ hle slots hslots
  simp only [ha, hb, Option.join_some, Option.getD_some]
  exact ⟨hunits.trans (Subject.unitsBefore_mono t hka (hab.trans hbs)), Subject.unitsBefore_mono t hab hbs,
    Subject.unitsBefore_mono t hbs (Nat.le_refl _), a, b, hab, hbs, Subject.unitsBefore_ofText t (hab.trans hbs),
    Subject.unitsBefore_ofText t hbs⟩

/-- Matches that follow on each other, each one from where the last one lets matching go on. -/
def Follow (t : String) : Nat → List Match → Prop
  | _, [] => True
  | start, m :: rest => start ≤ m.start ∧ m.start ≤ m.stop ∧ m.Cuts t ∧ Follow t m.next rest

theorem Program.follow_findAll (hp : p.Searches (.ofText t)) : ∀ fuel start : Nat,
    Follow t start (p.findAll (.ofText t) fuel start)
  | 0, _ => trivial
  | fuel + 1, start => by
    rw [findAll]
    split
    · trivial
    · rename_i hstart
      rw [Subject.unitsBefore_end, Nat.not_lt] at hstart
      split
      · trivial
      · rename_i m hm
        obtain ⟨h₁, h₂, -, h₃⟩ := findAt?_spec hp hstart hm
        exact ⟨h₁, h₂, h₃, follow_findAll hp fuel _⟩

theorem Follow.mem : ∀ {l : List Match} {start : Nat}, Follow t start l → ∀ m ∈ l, start ≤ m.start ∧ m.Cuts t
  | [], _, _ => nofun
  | m :: rest, start, ⟨h₁, h₂, h₃, hrest⟩ => by
    refine List.forall_mem_cons.mpr ⟨⟨h₁, h₃⟩, fun m' hm' => ⟨?_, (hrest.mem m' hm').2⟩⟩
    have hle : m.stop ≤ m.next := by
      rw [Match.next]
      split <;> omega
    exact h₁.trans (h₂.trans (hle.trans (hrest.mem m' hm').1))

/-- Each of these matches starts at or after the end of those before it, and after their start. -/
theorem Follow.pairwise : ∀ {l : List Match} {start : Nat}, Follow t start l →
    l.Pairwise fun x y => x.stop ≤ y.start ∧ x.start < y.start
  | [], _, _ => .nil
  | m :: rest, _, ⟨_, h₂, _, hrest⟩ => by
    refine .cons (fun m' hm' => ?_) hrest.pairwise
    have hnext := (hrest.mem m' hm').1
    rw [Match.next] at hnext
    split at hnext <;> omega

end Regex

/-! ## 3. The place in an object -/

namespace Object

/-- Where the next search of a regular expression starts. -/
def place : Key := .string "lastIndex"

variable {o : Object} {v : Value} {e c : Bool}

/-- No object makes up a `lastIndex`. -/
theorem own?_place (o : Object) : o.own? place = o.stored? place := by
  have hindex : Text.index? "lastIndex" = none := by decide
  have hvirtual : o.virtual? "lastIndex" = none := by
    unfold virtual?
    cases o.elements <;> cases o.text? <;> simp [arrayProperty?, textProperty?, hindex]
  simp [own?, place, hvirtual]

theorem define_place (o : Object) (d : Descriptor) : o.define place d = o.defineStored place d := by
  have hindex : Text.index? "lastIndex" = none := by decide
  have hnamed : o.defineNamed "lastIndex" d = o.defineStored place d := by
    unfold defineNamed
    cases o.text? <;> simp [textProperty?, hindex, place]
  unfold define
  cases o.elements <;> simp [place, hindex, hnamed]

/-- A writable `lastIndex` takes any value, and nothing else of the object changes. -/
theorem set_place (h : o.own? place = some ⟨.data v true, e, c⟩) (w : Value) :
    (∃ properties, (o.define place { value := some w }).1 = { o with properties := properties }) ∧
      (o.define place { value := some w }).1.own? place = some ⟨.data w true, e, c⟩ := by
  rw [own?_place, stored?_eq] at h ⊢
  rw [define_place]
  refine ⟨o.defineStored_rest _ _, ?_⟩
  obtain ⟨hnone, -⟩ | ⟨front, entry, back, hlist, hkey, hfront, hset⟩ :=
    o.defineStored_cases place { value := some w }
  · rw [under?_eq_none hnone] at h
    cases h
  · rw [hlist, under?_here hkey hfront, Option.some.injEq] at h
    have hadmits : entry.2.admits { value := some w } = true := by
      rw [h]
      rfl
    rw [hset, hadmits, Bool.not_true, Bool.and_false, if_neg Bool.false_ne_true, under?_here (Key.same_self _) hfront, h]
    rfl

end Object

/-- A regular expression object that is searched from its `lastIndex` on, and its `lastIndex` can be written. -/
structure Machine.Global (m : Machine) (id : ObjectId) (r : Regex) (place : Value) : Prop where
  regex : (m.objectAt id).regex = some r
  isGlobal : r.has 'g' = true
  notSticky : r.has 'y' = false
  unprotected : m.realm.label? id = none
  writable : ∃ e c, (m.objectAt id).own? Object.place = some ⟨.data place true, e, c⟩

namespace Eval

variable (answers : Answers) {m : Machine} {id : ObjectId} {r : Regex} {v w : Value}

theorem lookup?_place (h : m.Global id r v) : ∃ e c, m.lookup? id Object.place = some ⟨.data v true, e, c⟩ := by
  obtain ⟨e, c, hown⟩ := h.writable
  exact ⟨e, c, by rw [State.lookup?, State.lookupFrom, hown]⟩

/-- Its `lastIndex` takes any value. -/
theorem run_put_place (h : m.Global id r v) (w : Value) :
    ∃ m', (putNamed (.object id) "lastIndex" w).run answers m = .ok () m' ∧ m'.Global id r w := by
  obtain ⟨e, c, hown⟩ := h.writable
  obtain ⟨e', c', hlookup⟩ := lookup?_place h
  have hid : id.index < m.heap.size := State.index_lt_of_lookupFrom hlookup
  obtain ⟨⟨properties, hdefine⟩, hset⟩ := Object.set_place hown w
  let f := fun o : Object => o.define Object.place { value := some w }
  have hobject := State.objectAt_changeObject hid f
  refine ⟨⟨(m.toState.changeObject id f).2, m.limits, m.steps⟩, ?_, ?_, h.isGlobal, h.notSticky, ?_, e, c, ?_⟩
  · have hkey : Object.place.isName "__proto__" = false := by decide
    have hhas : (m.objectAt id).hasOwn Object.place = true := by rw [Object.hasOwn, hown]; rfl
    have hlabel := h.unprotected
    change (put (.object id) Object.place w).run answers m = _
    simp [put.eq_def, checkMutable, lookup?, object, bind, pure, run, hlabel, hkey, hlookup, hhas, defineOwn, updateObject,
      discard, Functor.discard, Functor.mapConst, Machine.updated, Update.apply.eq_def, f]
  · rw [hobject]
    change (Object.define _ _ _).1.regex = _
    rw [hdefine]
    exact h.regex
  · change ((m.toState.changeObject id f).2.realm).label? id = none
    rw [State.changeObject_eq]
    exact h.unprotected
  · rw [hobject]
    exact hset

/-- The place is read as it was written. -/
theorem run_searchStart {n : Nat} (h : m.Global id r (.ofNat n)) (hn : n < 2 ^ 53) :
    (searchStart (.object id)).run answers m = .ok n m := by
  obtain ⟨e, c, hlookup⟩ := lookup?_place h
  have hread : (getNamed (.object id) "lastIndex").run answers m = .ok (.ofNat n) m := by
    change (get (.object id) Object.place).run answers m = _
    simp [get, lookup?, readProperty, bind, pure, run, hlookup]
  have hplace : (if Number.ofNat n > 0.0 then Number.toNatural64 (Number.ofNat n) else 0) = n := by
    rcases Nat.eq_zero_or_pos n with rfl | hpos
    · rfl
    · obtain ⟨m, e, hm, hparts, -⟩ := Number.parts_ofNat hpos hn
      rw [if_pos (Number.positive_of_parts hparts).2.2.2.2, Number.toNatural64_ofNat hn]
  have hinteger : (toInteger (.ofNat n)).run answers m = .ok (Number.ofNat n) m := by
    simp [toInteger, toNumber, Value.ofNat, bind, pure, run, Number.toInteger_ofNat hn]
  refine (run_bind_of_ok hread).trans ((run_bind_of_ok hinteger).trans ?_)
  rw [hplace]
  rfl

/-! ## 4. Searching with `exec` -/

/-- What a search from a place on finds; nothing is found behind the end of the text. -/
def found? (r : Regex) (input : String) (start : Nat) : Option Regex.Match :=
  if Text.size input < start then none else r.findAt? (.ofText input) start

/-- A search starts at `lastIndex`, and leaves behind where the match ends, or zero. -/
theorem run_execRegex {n : Nat} (h : m.Global id r (.ofNat n)) (hn : n < 2 ^ 53) (input : String) :
    ∃ m', (execRegex (.object id) input).run answers m = .ok (found? r input n) m' ∧
      m'.Global id r (.ofNat (((found? r input n).map Regex.Match.stop).getD 0)) := by
  obtain ⟨m', hput, hm'⟩ := run_put_place answers h
    (.ofNat (((found? r input n).map Regex.Match.stop).getD 0))
  refine ⟨m', ?_, hm'⟩
  have hregex : (receiverRegex (.object id) "exec").run answers m = .ok r m := by
    simp [receiverRegex, regexOf?, object, bind, pure, run, h.regex]
  refine (run_bind_of_ok hregex).trans ?_
  have hfound : (if Text.size input < n then none
      else (r.findAt? (.ofText input) n).filter fun m => !r.has 'y' || m.start = n) = found? r input n := by
    cases hfind : r.findAt? (.ofText input) n <;> simp [found?, h.notSticky, hfind, Option.filter]
  simp only [h.isGlobal, Bool.true_or, if_true]
  refine (run_bind_of_ok (run_searchStart answers h hn)).trans ?_
  rw [hfound]
  exact (run_bind_of_ok hput).trans rfl

/-- Add one to `lastIndex` after an empty match. -/
def stepPast (receiver : Value) (x : Regex.Match) : Eval Unit :=
  if x.stop = x.start then putNamed receiver "lastIndex" (.ofNat (x.stop + 1)) else pure ()

/-- What calls of `exec` on an object find, one after the other, until there is nothing more to be found. -/
inductive Executes (answers : Answers) (receiver : Value) (input : String) : Machine → List Regex.Match → Machine → Prop
  | done {m m' : Machine} (hexec : (execRegex receiver input).run answers m = .ok none m') :
    Executes answers receiver input m [] m'
  | found {m m₁ m₂ m' : Machine} {x : Regex.Match} {rest : List Regex.Match}
    (hexec : (execRegex receiver input).run answers m = .ok (some x) m₁)
    (hstep : (stepPast receiver x).run answers m₁ = .ok () m₂)
    (hrest : Executes answers receiver input m₂ rest m') : Executes answers receiver input m (x :: rest) m'

variable {input : String}

/-- After a match, the next search starts where matching goes on. -/
theorem run_stepPast {x : Regex.Match} (h : m.Global id r (.ofNat x.stop)) :
    ∃ m', (stepPast (.object id) x).run answers m = .ok () m' ∧ m'.Global id r (.ofNat x.next) := by
  rw [stepPast, Regex.Match.next]
  split
  · exact run_put_place answers h _
  · exact ⟨m, rfl, h⟩

/-- Every match is one that `exec` finds, in the same order, and there are no more. -/
theorem executes_findAll (hsearches : r.program.Searches (.ofText input)) (hsize : Text.size input + 1 < 2 ^ 53) :
    ∀ (fuel start : Nat) {m : Machine}, Text.size input + 1 ≤ fuel + start → start ≤ Text.size input + 1 →
      m.Global id r (.ofNat start) →
      ∃ m', Executes answers (.object id) input m (r.program.findAll (.ofText input) fuel start) m' := by
  have hend {start : Nat} {m : Machine} (hn : start < 2 ^ 53) (h : m.Global id r (.ofNat start))
      (hnone : found? r input start = none) : ∃ m', Executes answers (.object id) input m [] m' := by
    obtain ⟨m', hexec, -⟩ := run_execRegex answers h hn input
    rw [hnone] at hexec
    exact ⟨m', .done hexec⟩
  intro fuel
  induction fuel with
  | zero =>
    intro start m hfuel hstart h
    refine hend (by omega) h ?_
    rw [found?, if_pos (by omega)]
  | succ fuel ih =>
    intro start m hfuel hstart h
    rw [Regex.Program.findAll, Regex.Subject.unitsBefore_end]
    split
    case isTrue hlt => exact hend (by omega) h (if_pos hlt)
    case isFalse hlt =>
      have hfound : found? r input start = r.program.findAt? (.ofText input) start := if_neg hlt
      cases hx : r.program.findAt? (.ofText input) start with
      | none => exact hend (by omega) h (hfound.trans hx)
      | some x =>
        obtain ⟨hstart', hle, hstop, -⟩ := Regex.Program.findAt?_spec hsearches (Nat.le_of_not_lt hlt) hx
        obtain ⟨m₁, hexec, h₁⟩ := run_execRegex answers h (by omega) input
        rw [hfound, hx] at hexec h₁
        obtain ⟨m₂, hstep, h₂⟩ := run_stepPast answers h₁
        have hnext : start < x.next ∧ x.next ≤ Text.size input + 1 := by
          rw [Regex.Match.next]
          split <;> omega
        obtain ⟨m', hrest⟩ := ih x.next (by omega) hnext.2 h₂
        exact ⟨m', .found hexec hstep hrest⟩

/-! ## 5. The functions on texts -/

variable {answers}

theorem run_regexOf? (h : m.Global id r v) : (regexOf? (.object id)).run answers m = .ok (some r) m := by
  simp [regexOf?, object, bind, pure, run, h.regex]

theorem run_patternRegex (h : m.Global id r v) (flags : String) :
    (patternRegex (.object id) flags).run answers m = .ok (.object id) m :=
  (run_bind_of_ok (run_regexOf? h)).trans rfl

variable {m₀ : Machine} (hput : (putNamed (.object id) "lastIndex" (.ofNat 0)).run answers m = .ok () m₀)
include hput

/-- What `match` gives is made of all the matches, and `lastIndex` is zero after it. -/
theorem run_matchText (h : m.Global id r v) :
    (matchText input (.object id)).run answers m =
      (if (r.findAll (.ofText input)).isEmpty then pure .null
        else newArray ((r.findAll (.ofText input)).map fun x => .string x.text).toArray).run answers m₀ := by
  refine (run_bind_of_ok (run_patternRegex h "")).trans ((run_bind_of_ok (run_regexOf? h)).trans ?_)
  simp only [h.isGlobal, if_true]
  exact run_bind_of_ok hput

theorem run_replacedMatches (h : m.Global id r v) (all : Bool) :
    (replacedMatches input (.object id) all).run answers m = .ok (r.findAll (.ofText input)) m₀ := by
  refine (run_bind_of_ok (run_regexOf? h)).trans ?_
  simp only [h.isGlobal, if_true]
  exact (run_bind_of_ok hput).trans rfl

omit hput in
theorem run_matchAllText (h : m.Global id r v) :
    (matchAllText input (.object id)).run answers m =
      (do newArray (← (r.findAll (.ofText input)).mapM fun x => matchArray x input).toArray).run answers m := by
  have hglobal : (requireGlobal (.object id)).run answers m = .ok () m := by
    refine (run_bind_of_ok (run_regexOf? h)).trans ?_
    simp [h.isGlobal, pure, run]
  exact (run_bind_of_ok hglobal).trans ((run_bind_of_ok (run_patternRegex h "g")).trans
    (run_bind_of_ok (run_regexOf? h)))

end Eval

open Eval

/-- **Global matching is repeated `exec`.** For an object with the flag `g` and not `y` that can be written, the functions
on texts use the matches that `exec` finds when it starts from the beginning and is called until it finds nothing; each
time after an empty match, `lastIndex` goes up by one. These end, they stand one after the other and take whole
characters. -/
theorem StringMethod.global_matching (input : String) (r : Regex) (id : ObjectId) (v : Value) (answers : Answers)
    (m : Machine) (h : m.Global id r v) (hsearches : r.program.Searches (.ofText input))
    (hsize : Text.size input + 1 < 2 ^ 53) :
    ∃ (ms : List Regex.Match) (m₀ m' : Machine),
      (putNamed (.object id) "lastIndex" (.ofNat 0)).run answers m = .ok () m₀ ∧
      Executes answers (.object id) input m₀ ms m' ∧
      ms.Pairwise (fun x y => x.stop ≤ y.start ∧ x.start < y.start) ∧ (∀ x ∈ ms, x.Cuts input) ∧
      (StringMethod.matchFirst.run (.string input) #[.object id]).run answers m =
        (if ms.isEmpty then pure .null else newArray (ms.map fun x => .string x.text).toArray).run answers m₀ ∧
      (StringMethod.matchAll.run (.string input) #[.object id]).run answers m =
        (do newArray (← ms.mapM fun x => matchArray x input).toArray).run answers m ∧
      ∀ all, (replacedMatches input (.object id) all).run answers m = .ok ms m₀ := by
  obtain ⟨m₀, hput, h₀⟩ := run_put_place answers h (.ofNat 0)
  obtain ⟨m', hexecutes⟩ := executes_findAll answers hsearches hsize (Text.size input + 1) 0
    (by omega) (by omega) h₀
  have hfollow := Regex.Program.follow_findAll hsearches (Text.size input + 1) 0
  have hall : r.findAll (.ofText input) = r.program.findAll (.ofText input) (Text.size input + 1) 0 := by
    rw [Regex.findAll, Regex.Subject.unitsBefore_end]
  rw [← hall] at hexecutes hfollow
  refine ⟨_, m₀, m', hput, hexecutes, hfollow.pairwise, fun x hx => (hfollow.mem x hx).2, run_matchText hput h,
    run_matchAllText h, run_replacedMatches hput h⟩

/-- The program of the empty expression. -/
def Regex.Program.empty : Program :=
  { instructions := #[.accept, .mark 1 0, .mark 0 1], start := 2, names := #[none] }

theorem Regex.Program.find?_empty (s : Subject) {k : Nat} (hk : k ≤ s.chars.size) :
    empty.find? s k = some #[some k, some k] := by
  obtain ⟨count, hcount⟩ : ∃ count, s.chars.size + 1 - k = count + 1 := ⟨s.chars.size - k, by omega⟩
  obtain ⟨fuel, hfuel⟩ : ∃ fuel, 6 * (s.chars.size + 1) = fuel + 1 := ⟨6 * s.chars.size + 5, by omega⟩
  rw [find?, hcount, findFrom]
  simp [hfuel, search, empty, follow, isAccepting]
  rfl

theorem Regex.Program.searches_empty (s : Subject) : empty.Searches s := by
  intro k hk slots h
  rw [find?_empty s hk] at h
  cases h
  exact ⟨k, k, rfl, rfl, Nat.le_refl k, Nat.le_refl k, hk⟩

/-- The empty expression is found between all characters; a search from the middle of a character goes on behind it. -/
theorem StringMethod.global_matching_empty :
    let r : Regex := { source := "(?:)", flags := "g", program := .empty }
    let m : Machine := { ({} : Machine) with heap := #[regexInto {} r] }
    m.Global ⟨0⟩ r (.ofNat 0) ∧ r.program.Searches (.ofText "😀") ∧ Text.size "😀" + 1 < 2 ^ 53 ∧
    ∃ (ms : List Regex.Match) (m₀ m' : Machine),
      (putNamed (.object ⟨0⟩) "lastIndex" (.ofNat 0)).run (Eval.answers 0) m = .ok () m₀ ∧
      Executes (Eval.answers 0) (.object ⟨0⟩) "😀" m₀ ms m' ∧
      ms.Pairwise (fun x y => x.stop ≤ y.start ∧ x.start < y.start) ∧ (∀ x ∈ ms, x.Cuts "😀") ∧
      (StringMethod.matchFirst.run (.string "😀") #[.object ⟨0⟩]).run (Eval.answers 0) m =
        (if ms.isEmpty then pure .null
          else newArray (ms.map fun x => .string x.text).toArray).run (Eval.answers 0) m₀ ∧
      (StringMethod.matchAll.run (.string "😀") #[.object ⟨0⟩]).run (Eval.answers 0) m =
        (do newArray (← ms.mapM fun x => matchArray x "😀").toArray).run (Eval.answers 0) m ∧
      ∀ all, (replacedMatches "😀" (.object ⟨0⟩) all).run (Eval.answers 0) m = .ok ms m₀ := by
  intro r m
  have hobject : m.objectAt ⟨0⟩ =
      { sort := .regex, regex := some r, properties := #[(Object.place, .data (.ofNat 0) true false false)] } := by
    simp [m, State.objectAt, regexInto, Object.insert, Object.store, Object.find?, Object.place]
    rfl
  have hglobal : m.Global ⟨0⟩ r (.ofNat 0) :=
    ⟨by rw [hobject], by decide, by decide, by decide, false, false, by rw [hobject, Object.own?_place]; rfl⟩
  have hsize : Text.size "😀" + 1 < 2 ^ 53 := by
    rw [Text.size_eq]
    decide
  exact ⟨hglobal, Regex.Program.searches_empty _, hsize, StringMethod.global_matching "😀" r ⟨0⟩ (.ofNat 0)
    (Eval.answers 0) m hglobal (Regex.Program.searches_empty _) hsize⟩

end GuestScript
