import GuestScript.Proofs.Balance
import GuestScript.Proofs.Count
import GuestScript.Proofs.Object.Write

/-!
# Joining arrays that are inside each other

The text of an array is the texts of its elements with a separator between them. An element may be an array again, whose
`toString` calls its `join`, and the arrays of a heap may be inside each other in any way, also in circles. What ends the
walk is the list of the arrays that are being joined: one that is on it is empty text (`State.joinedText`).

On a path into the arrays the list grows by other arrays, so no path has more of them than there are objects
(`joins_joinedText`). Nothing is changed on the way, and a call that has ended has taken back what it put on the list,
whether it gave a text or threw (`run_joined`).

Each array on the way makes two requests. The heap is taken to be so small that all its arrays may be inside each other
before requests are nested too deep (`nestingLimit`).
-/

namespace GuestScript

/-! ## 1. The text of an array -/

/-- The text of a value, from the texts of arrays. -/
def Value.textBy (array : ObjectId → String) : Value → String
  | .undefined => "undefined"
  | .null => "null"
  | .boolean b => if b then "true" else "false"
  | .number x => Number.text x
  | .string s => s
  | .symbol _ => ""
  | .object id => array id

/-- The text between elements, for the argument of `join`. -/
def Value.separatorBy (array : ObjectId → String) (v : Value) : String :=
  if v.isUndefined then "," else v.textBy array

/-- Whether a value is a primitive with a text, or one of some arrays. -/
def Value.Joinable (arrays : List ObjectId) : Value → Prop
  | .object id => id ∈ arrays
  | .symbol _ => False
  | _ => True

namespace State

/-- The text of an array, down to a depth, where the arrays around it are being joined: inside itself an array is empty
text, and so are `undefined` and `null`. -/
def joinedText (s : State) : Nat → List ObjectId → String → ObjectId → String
  | 0, _, _, _ => ""
  | depth + 1, around, separator, id =>
    if id ∈ around then ""
    else separator.intercalate (((s.objectAt id).elements.getD #[]).toList.map fun v =>
      if v.isNullish then "" else v.textBy (joinedText s depth (id :: around) ","))

/-- Whether the value of a property is a built-in function. -/
def Offers (s : State) (id : ObjectId) (name : String) (b : Builtin) : Prop :=
  ∃ p f, s.lookup? id (.string name) = some p ∧ p.value? = some (.object f) ∧
    (s.objectAt f).callable = some (.builtin b)

/-- Arrays that hold nothing but primitives and each other, and have the built-in conversions. -/
structure Joinable (s : State) (arrays : List ObjectId) : Prop where
  elements : ∀ id ∈ arrays, ∃ es, (s.objectAt id).elements = some es ∧ ∀ v ∈ es.toList, v.Joinable arrays
  unconverted : ∀ id ∈ arrays, s.lookup? id (.symbol (.wellKnown .toPrimitive)) = none
  toString : ∀ id ∈ arrays, s.Offers id "toString" (.array .toString)
  join : ∀ id ∈ arrays, s.Offers id "join" (.array .join)

variable {s : State} {arrays : List ObjectId} {id : ObjectId}

theorem Joinable.index_lt (h : s.Joinable arrays) (hid : id ∈ arrays) : id.index < s.heap.size := by
  obtain ⟨es, hes, -⟩ := h.elements id hid
  by_contra hle
  rw [objectAt_of_size_le (Nat.le_of_not_lt hle)] at hes
  cases hes

theorem lookupFrom_of_heap {s' : State} (h : s'.heap = s.heap) (key : Key) : ∀ (fuel : Nat) (id : ObjectId),
    s'.lookupFrom key fuel id = s.lookupFrom key fuel id
  | 0, _ => rfl
  | fuel + 1, id => by
    simp only [lookupFrom, objectAt, h]
    split
    · rfl
    · split
      · exact lookupFrom_of_heap h key fuel _
      · rfl

theorem Joinable.of_heap {s' : State} (hs : s.Joinable arrays) (h : s'.heap = s.heap) : s'.Joinable arrays := by
  have hobject : ∀ id, s'.objectAt id = s.objectAt id := fun id => by rw [objectAt, objectAt, h]
  have hlookup : ∀ id key, s'.lookup? id key = s.lookup? id key := fun id key => by
    rw [lookup?, lookup?, h, lookupFrom_of_heap h]
  obtain ⟨helements, hunconverted, htoString, hjoin⟩ := hs
  constructor <;> simpa only [hobject, hlookup, Offers]

end State

namespace Eval

open State

variable {s : State} {arrays : List ObjectId} {id f : ObjectId} {m : Machine} {answers : Answers}

/-! ## 2. Calls of built-in functions -/

theorem run_getNamed_of_offers (answers : Answers) {name : String} {b : Builtin} (h : m.Offers id name b) :
    ∃ f, (getNamed (.object id) name).run answers m = .ok (.object f) m ∧ (m.objectAt f).callable = some (.builtin b) := by
  obtain ⟨⟨content, enumerable, configurable⟩, f, hlookup, hp, hf⟩ := h
  have hread : (getNamed (.object id) name).run answers m =
      (readProperty (.object id) (m.lookup? id (.string name))).run answers m := rfl
  refine ⟨f, ?_, hf⟩
  rw [hread, hlookup]
  cases content with
  | data v writable =>
    cases hp
    rfl
  | accessor getter setter => cases hp

theorem run_isCallable_of_builtin {b : Builtin} (hf : (m.objectAt f).callable = some (.builtin b)) :
    (isCallable (.object f)).run answers m = .ok true m := by
  simp [isCallable, callable?, object, bind, pure, run, hf]

/-- A built-in function runs without a target of `new`. One that leaves its machine as it was does so when it is called. -/
theorem run_callFunction_builtin {b : Builtin} {receiver v : Value} {args : Array Value}
    (hf : (m.objectAt f).callable = some (.builtin b))
    (h : (b.run receiver args).run answers (m.withRegisters (Frame.target none).enter) =
      .ok v (m.withRegisters (Frame.target none).enter)) :
    (callFunction (.object f) receiver args).run answers m = .ok v m := by
  have hcallable : (callable? (.object f)).run answers m = .ok (some (.builtin b)) m := by
    simp [callable?, object, bind, pure, run, hf]
  rw [callFunction, run_bind_of_ok hcallable]
  simp only [withNewTarget, run, Run.between, h]
  rfl

/-! ## 3. Texts of elements -/

/-- Whether arrays have texts while some arrays are being joined, on all machines with a heap. -/
def Joins (s : State) (around : List ObjectId) (arrays : List ObjectId) (n : Nat) (text : String → ObjectId → String) :
    Prop :=
  ∀ separator, ∀ id ∈ arrays, ∀ m : Machine, m.heap = s.heap → m.joining = around →
    (joinReceiver (.object id) (.string separator)).run (Eval.answers n) m = .ok (text separator id) m

variable {n : Nat} {around : List ObjectId} {text : String → ObjectId → String} {v : Value}

/-- `toString` calls `join`. -/
theorem run_toString (hs : s.Joinable arrays) (hjoins : Joins s around arrays n text) (hid : id ∈ arrays)
    (hheap : m.heap = s.heap) (hjoining : m.joining = around) :
    (ArrayMethod.run .toString (.object id) #[]).run (Eval.answers (n + 1)) m = .ok (.string (text "," id)) m := by
  obtain ⟨f, hget, hf⟩ := run_getNamed_of_offers (Eval.answers (n + 1)) ((hs.of_heap hheap).join id hid)
  have hjoin : (Builtin.run (.array .join) (.object id) #[]).run (Eval.answers n)
      (m.withRegisters (Frame.target none).enter) = .ok (.string (text "," id)) _ :=
    run_bind_of_ok (hjoins "," id hid (m.withRegisters (Frame.target none).enter) hheap hjoining)
  exact (run_bind_of_ok hget).trans ((run_bind_of_ok (run_isCallable_of_builtin hf)).trans
    (run_callFunction_builtin hf hjoin))

/-- The text of a primitive is its own, and an array is asked for it with `toString`. -/
theorem run_toText (hs : s.Joinable arrays) (hjoins : Joins s around arrays n text) (hv : v.Joinable arrays)
    (hheap : m.heap = s.heap) (hjoining : m.joining = around) :
    (toText v).run (Eval.answers (n + 2)) m = .ok (v.textBy (text ",")) m := by
  cases v with
  | object id =>
    have hm := hs.of_heap hheap
    obtain ⟨f, hget, hf⟩ := run_getNamed_of_offers (Eval.answers (n + 2)) (hm.toString id hv)
    have hcall : (call (.object f) (.object id) #[]).run (Eval.answers (n + 2)) m = .ok (.string (text "," id)) m :=
      run_callFunction_builtin hf (run_toString hs hjoins hv hheap hjoining)
    have hby : (primitiveBy? (.object id) "toString").run (Eval.answers (n + 2)) m =
        .ok (some (.string (text "," id))) m := by
      rw [primitiveBy?, run_bind_of_ok hget, run_bind_of_ok (run_isCallable_of_builtin hf)]
      exact run_bind_of_ok hcall
    have hconvert : (get (.object id) (.symbol (.wellKnown .toPrimitive))).run (Eval.answers (n + 2)) m =
        .ok .undefined m := by
      have hread : (get (.object id) (.symbol (.wellKnown .toPrimitive))).run (Eval.answers (n + 2)) m =
        (readProperty (.object id) (m.lookup? id (.symbol (.wellKnown .toPrimitive)))).run _ m := rfl
      rw [hread, hm.unconverted id hv]
      rfl
    have hprimitive : (toPrimitive (.object id) .string).run (Eval.answers (n + 2)) m =
        .ok (.string (text "," id)) m := by
      have hobject : (object id).run (Eval.answers (n + 2)) m = .ok (m.objectAt id) m := rfl
      rw [toPrimitive, run_bind_of_ok hconvert, if_neg (by decide), run_bind_of_ok hobject]
      exact (run_bind_of_ok hby).trans rfl
    exact run_bind_of_ok hprimitive
  | symbol => exact hv.elim
  | _ => rfl

/-- What is written for an element. -/
def elementText (texts : Value → String) (v : Value) : String :=
  if v.isNullish then "" else texts v

variable {texts : Value → String} {separator : String} {vs : List Value}

theorem run_joinElements_cons (isFirst : Bool) (acc : String)
    (h : v.isNullish = false → (toText v).run answers m = .ok (texts v) m) :
    (joinElements separator (v :: vs) isFirst acc).run answers m =
      (joinElements separator vs false ((if isFirst then acc else acc ++ separator) ++ elementText texts v)).run
        answers m := by
  rw [joinElements, elementText]
  cases hv : v.isNullish with
  | true => rfl
  | false =>
    simp only [Bool.false_eq_true, if_false]
    exact run_bind_of_ok (h hv)

/-- Elements are joined behind a text that is there already. -/
theorem run_joinElements_rest : ∀ {vs : List Value} (acc : String),
    (∀ v ∈ vs, v.isNullish = false → (toText v).run answers m = .ok (texts v) m) →
    (joinElements separator vs false acc).run answers m =
      .ok (separator.intercalate (acc :: vs.map (elementText texts))) m
  | [], _, _ => rfl
  | v :: _, acc, h =>
    (run_joinElements_cons false acc (h v (List.mem_cons_self ..))).trans
      (run_joinElements_rest _ fun w hw => h w (List.mem_cons_of_mem _ hw))

theorem run_joinElements_all (h : ∀ v ∈ vs, v.isNullish = false → (toText v).run answers m = .ok (texts v) m) :
    (joinElements separator vs true "").run answers m = .ok (separator.intercalate (vs.map (elementText texts))) m := by
  cases vs with
  | nil => rfl
  | cons v vs =>
    rw [run_joinElements_cons true "" (h v (List.mem_cons_self ..)), if_pos rfl, String.empty_append]
    exact run_joinElements_rest _ fun w hw => h w (List.mem_cons_of_mem _ hw)

/-! ## 4. The walk -/

/-- The separator is made a text first. -/
theorem run_joinReceiver_separator {argument : Value}
    {array : ObjectId → String} (h : (toText argument).run answers m = .ok (argument.textBy array) m) :
    (joinReceiver (.object id) argument).run answers m =
      (joinReceiver (.object id) (.string (argument.separatorBy array))).run answers m := by
  rw [joinReceiver, Value.separatorBy]
  cases hargument : argument.isUndefined with
  | true => rfl
  | false =>
    simp only [Bool.false_eq_true, if_false]
    exact run_bind_of_ok h

/-- An array that is being joined is empty text. -/
theorem run_joinReceiver_again (hmem : id ∈ m.joining) :
    (joinReceiver (.object id) (.string separator)).run answers m = .ok "" m := by
  have hasked : (read fun s => s.joining.contains id).run answers m = .ok true m := by simp [run, hmem]
  exact (run_bind_of_ok hasked).trans rfl

/-- Any other array is joined while it is on the list. -/
theorem run_joinReceiver_fresh {es : Array Value} {t : String} (hmem : id ∉ m.joining)
    (hes : (m.objectAt id).elements = some es)
    (h : (joinElements separator es.toList true "").run answers (m.withRegisters (Frame.joining id).enter) =
      .ok t (m.withRegisters (Frame.joining id).enter)) :
    (joinReceiver (.object id) (.string separator)).run answers m = .ok t m := by
  have hasked : (read fun s => s.joining.contains id).run answers m = .ok false m := by simp [run, hmem]
  have hlist : (elementsOf (.object id)).run answers (m.withRegisters (Frame.joining id).enter) =
      .ok es (m.withRegisters (Frame.joining id).enter) := by
    have hinner : ((m.withRegisters (Frame.joining id).enter).objectAt id).elements = some es := hes
    simp [elementsOf, toObject.eq_def, listOf, object, bind, pure, run, hinner]
  have hinside : (do joinElements separator (← elementsOf (.object id)).toList true "").run answers
      (m.withRegisters (Frame.joining id).enter) = .ok t (m.withRegisters (Frame.joining id).enter) :=
    (run_bind_of_ok hlist).trans h
  have hframe : (within (.joining id) (do joinElements separator (← elementsOf (.object id)).toList true "")).run
      answers m = .ok t m := by
    simp only [run, Run.between, hinside]
    rfl
  exact (run_bind_of_ok hasked).trans hframe

/-- **The walk comes to an end.** The arrays that it has put on the list differ, and each makes two requests. -/
theorem joins_joinedText (hs : s.Joinable arrays) {base : List ObjectId} : ∀ (gas : Nat) {fresh : List ObjectId}
    {n depth : Nat}, fresh.Nodup → (∀ id ∈ fresh, id.index < s.heap.size) → s.heap.size ≤ fresh.length + gas →
    gas < depth → 2 * gas ≤ n → Joins s (fresh ++ base) arrays n (s.joinedText depth (fresh ++ base)) := by
  intro gas
  induction gas with
  | zero =>
    intro fresh n depth hnodup hinside hgas hdepth _ separator id hid m hheap hjoining
    obtain ⟨depth, rfl⟩ := Nat.exists_eq_succ_of_ne_zero (Nat.ne_zero_of_lt hdepth)
    by_cases hmem : id ∈ fresh ++ base
    · rw [joinedText, if_pos hmem]
      exact run_joinReceiver_again (hjoining ▸ hmem)
    · have := (cons_of_notMem hnodup hinside (fun h => hmem (List.mem_append_left _ h)) (hs.index_lt hid)).2.2
      omega
  | succ gas ih =>
    intro fresh n depth hnodup hinside hgas hdepth hn separator id hid m hheap hjoining
    obtain ⟨depth, rfl⟩ := Nat.exists_eq_succ_of_ne_zero (Nat.ne_zero_of_lt hdepth)
    by_cases hmem : id ∈ fresh ++ base
    · rw [joinedText, if_pos hmem]
      exact run_joinReceiver_again (hjoining ▸ hmem)
    obtain ⟨n, rfl⟩ : ∃ n', n = n' + 2 := ⟨n - 2, by omega⟩
    obtain ⟨hnodup', hinside', -⟩ :=
      cons_of_notMem hnodup hinside (fun h => hmem (List.mem_append_left _ h)) (hs.index_lt hid)
    obtain ⟨es, hes, helements⟩ := hs.elements id hid
    have hes' : (m.objectAt id).elements = some es := by rw [objectAt, hheap]; exact hes
    -- the elements are joined with this array in front of those around it
    have hjoins : Joins s (id :: fresh ++ base) arrays n (s.joinedText depth (id :: fresh ++ base)) :=
      ih hnodup' hinside' (by rw [List.length_cons]; omega) (by omega) (by omega)
    rw [joinedText, if_neg hmem, hes]
    refine run_joinReceiver_fresh (hjoining ▸ hmem) hes' (run_joinElements_all fun v hv _ => ?_)
    exact run_toText hs hjoins (helements v hv) hheap (congrArg (id :: ·) hjoining)

/-! ## 5. `String`, `toString` and `join` -/

/-- **Arrays are joined to an end**, however they are inside each other, and to the text that leaves out an array inside
itself, whenever two requests for each object of the heap may be nested, and two more. Nothing is changed; and whatever
a call does and however it ends, it leaves the list of the arrays that are being joined as it was. -/
theorem run_joined (m : Machine) {arrays : List ObjectId} (h : m.Joinable arrays) {n : Nat}
    (hn : 2 * m.heap.size + 2 ≤ n) {id : ObjectId} (hid : id ∈ arrays) {depth : Nat} (hdepth : m.heap.size < depth) :
    (∀ f receiver, (m.objectAt f).callable = some (.builtin (.string .make)) →
      (callFunction (.object f) receiver #[.object id]).run (Eval.answers n) m =
        .ok (.string (m.joinedText depth m.joining "," id)) m) ∧
    (∀ f, (m.objectAt f).callable = some (.builtin (.array .toString)) →
      (callFunction (.object f) (.object id) #[]).run (Eval.answers n) m =
        .ok (.string (m.joinedText depth m.joining "," id)) m) ∧
    (∀ f separator, (m.objectAt f).callable = some (.builtin (.array .join)) → separator.Joinable arrays →
      (callFunction (.object f) (.object id) #[separator]).run (Eval.answers n) m =
        .ok (.string (m.joinedText depth m.joining
          (separator.separatorBy (m.joinedText depth m.joining ",")) id)) m) ∧
    ∀ (m' : Machine) function receiver args,
      (finalMachine ((callFunction function receiver args).run (Eval.answers n) m')).joining = m'.joining := by
  obtain ⟨n, rfl⟩ : ∃ n', n = n' + 2 := ⟨n - 2, by omega⟩
  have hjoins : ∀ n', 2 * m.heap.size ≤ n' → Joins m.toState m.joining arrays n' (m.joinedText depth m.joining) :=
    fun n' hn' => joins_joinedText h m.heap.size List.nodup_nil nofun (Nat.le_add_left _ _) hdepth hn'
  -- a built-in function runs without a target of `new`
  let inside := m.withRegisters (Frame.target none).enter
  have htext : ∀ v : Value, v.Joinable arrays →
      (toText v).run (Eval.answers (n + 2)) inside = .ok (v.textBy (m.joinedText depth m.joining ",")) inside :=
    fun v hv => run_toText (m := inside) h (hjoins n (by omega)) hv rfl rfl
  have htoString : (ArrayMethod.run .toString (.object id) #[]).run (Eval.answers (n + 2)) inside =
      .ok (.string (m.joinedText depth m.joining "," id)) inside :=
    run_toString (m := inside) h (hjoins (n + 1) (by omega)) hid rfl rfl
  refine ⟨fun f receiver hf => ?_, fun f hf => ?_, fun f separator hf hseparator => ?_, fun m' function receiver args => ?_⟩
  · exact run_callFunction_builtin hf (run_bind_of_ok (htext (.object id) hid))
  · exact run_callFunction_builtin hf htoString
  · have hjoin := hjoins (n + 2) (by omega) (separator.separatorBy (m.joinedText depth m.joining ",")) id hid inside
      rfl rfl
    exact run_callFunction_builtin hf
      (run_bind_of_ok ((run_joinReceiver_separator (htext separator hseparator)).trans hjoin))
  · exact (run_balanced (answers_balanced (n + 2)) _ m').joining

/-- Two arrays that hold each other, and the functions that they inherit. -/
def entwined : Machine :=
  { heap := #[
      { prototype := none, properties := #[
          (.string "toString", .hidden (.object ⟨1⟩)), (.string "join", .hidden (.object ⟨2⟩))] },
      { prototype := none, callable := some (.builtin (.array .toString)) },
      { prototype := none, callable := some (.builtin (.array .join)) },
      { prototype := some ⟨0⟩, sort := .array, elements := some #[.boolean true, .object ⟨4⟩] },
      { prototype := some ⟨0⟩, sort := .array, elements := some #[.object ⟨3⟩, .null, .object ⟨4⟩] }] }

/-- The second array is joined inside the first one, and neither inside itself. -/
theorem run_joined_entwined : (callFunction (.object ⟨1⟩) (.object ⟨3⟩) #[]).runOn entwined =
    .ok (.string "true,,,") entwined := by
  have hids : ∀ id ∈ [(⟨3⟩ : ObjectId), ⟨4⟩], id = ⟨3⟩ ∨ id = ⟨4⟩ := by simp
  have hjoinable : entwined.Joinable [⟨3⟩, ⟨4⟩] := by
    constructor <;> intro id hid <;> obtain rfl | rfl := hids id hid
    · exact ⟨_, rfl, by simp [Value.Joinable]⟩
    · exact ⟨_, rfl, by simp [Value.Joinable]⟩
    · rfl
    · rfl
    all_goals exact ⟨_, _, rfl, rfl, rfl⟩
  have htext : entwined.joinedText 6 [] "," ⟨3⟩ = "true,,," := by decide
  have hdepth : entwined.heap.size < 6 := by decide
  exact htext ▸ (run_joined (n := nestingLimit) entwined hjoinable (by decide) (List.mem_cons_self ..) hdepth).2.1 ⟨1⟩ rfl

end Eval

end GuestScript
