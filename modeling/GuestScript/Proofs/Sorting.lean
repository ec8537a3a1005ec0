import GuestScript.Proofs.Count
import GuestScript.Proofs.Object.Elements
import GuestScript.Proofs.Reach.WellFormed

/-!
# Sorting with functions of a script

To sort an array, a script is asked again and again: for the order of two elements if there is a function to compare
with, else for the text of each element. A question may fail, and what it does meanwhile is no business of the sort. So a
run of the sort is told by the questions that it asks (`Sorting.Calls`): it does nothing else, and it fails where one of
them fails (`Eval.Asks`).

Whatever the answers are, what comes out is made of halves that were merged (`Sorting.Sorts`), so no element is lost and
none is there twice. If the answers are those of a total preorder, the result is sorted by it, and elements that are
equal in it keep their order (`Sorting.SortedFrom`). All of this together is `ArrayMethod.sorts`.
-/

namespace GuestScript

namespace Sorting

/-! ## 1. Merging halves -/

section

variable {α : Type} {le : α → α → Bool} {known values left right ls rs out : List α}
  {Says Tells : α → α → Bool → Prop}

/-- Whether an order is a total preorder on some elements. -/
structure IsPreorderOn (le : α → α → Bool) (values : List α) : Prop where
  total : ∀ a ∈ values, ∀ b ∈ values, le a b = true ∨ le b a = true
  trans : ∀ a ∈ values, ∀ b ∈ values, ∀ c ∈ values, le a b = true → le b c = true → le a c = true

/-- The elements of a list that are equal to a given one in an order. -/
def equals (le : α → α → Bool) (v : α) (values : List α) : List α :=
  values.filter fun w => le v w && le w v

/-- Whether a list is another one, stably sorted by an order: elements that are equal keep their order. -/
structure SortedFrom (le : α → α → Bool) (values out : List α) : Prop where
  perm : out.Perm values
  ordered : out.Pairwise fun a b => le a b = true
  stable : ∀ v ∈ values, equals le v out = equals le v values

/-- How two lists are merged, by what is said of the elements at their heads. -/
inductive Merges (Says : α → α → Bool → Prop) : List α → List α → List α → Prop where
  | leftEmpty (rs : List α) : Merges Says [] rs rs
  | rightEmpty (ls : List α) : Merges Says ls [] ls
  | takeLeft {l r : α} {ls rs out : List α} (h : Says l r true) (rest : Merges Says ls (r :: rs) out) :
      Merges Says (l :: ls) (r :: rs) (l :: out)
  | takeRight {l r : α} {ls rs out : List α} (h : Says l r false) (rest : Merges Says (l :: ls) rs out) :
      Merges Says (l :: ls) (r :: rs) (r :: out)

/-- How a list is sorted by merging its parts. -/
inductive Sorts (Says : α → α → Bool → Prop) : List α → List α → Prop where
  | short {values : List α} (h : values.length ≤ 1) : Sorts Says values values
  | halves {values left right out : List α} (half : Nat) (hleft : Sorts Says (values.take half) left)
      (hright : Sorts Says (values.drop half) right) (hmerge : Merges Says left right out) : Sorts Says values out

theorem Merges.mono (h : Merges Says ls rs out) (hagree : ∀ a b answer, Says a b answer → Tells a b answer) :
    Merges Tells ls rs out := by
  induction h with
  | leftEmpty rs => exact .leftEmpty rs
  | rightEmpty ls => exact .rightEmpty ls
  | takeLeft h _ ih => exact .takeLeft (hagree _ _ _ h) ih
  | takeRight h _ ih => exact .takeRight (hagree _ _ _ h) ih

theorem Sorts.mono (h : Sorts Says values out) (hagree : ∀ a b answer, Says a b answer → Tells a b answer) :
    Sorts Tells values out := by
  induction h with
  | short h => exact .short h
  | halves half _ _ hmerge ihleft ihright => exact .halves half ihleft ihright (hmerge.mono hagree)

/-- No element is lost when lists are merged, whatever is said. -/
theorem Merges.perm (h : Merges Says ls rs out) : out.Perm (ls ++ rs) := by
  induction h with
  | leftEmpty rs => exact .refl _
  | rightEmpty ls => rw [List.append_nil]
  | takeLeft _ _ ih => exact ih.cons _
  | takeRight _ _ ih => exact (ih.cons _).trans List.perm_middle.symm

/-- **No element is lost by sorting**, whatever is said. -/
theorem Sorts.perm (h : Sorts Says values out) : out.Perm values := by
  induction h with
  | short => exact .refl _
  | @halves values left right out half _ _ hmerge ihleft ihright =>
    calc out.Perm (left ++ right) := hmerge.perm
      _ |>.Perm (values.take half ++ values.drop half) := ihleft.append ihright
      _ = values := List.take_append_drop half values

theorem equals_cons (v w : α) (values : List α) :
    equals le v (w :: values) = if le v w && le w v then w :: equals le v values else equals le v values :=
  List.filter_cons

theorem equals_append (v : α) (ls rs : List α) : equals le v (ls ++ rs) = equals le v ls ++ equals le v rs :=
  List.filter_append _ _

section

variable (hle : IsPreorderOn le known) (hagree : ∀ a b answer, Says a b answer → answer = le a b)
include hle hagree

/-- What is merged of sorted lists is sorted. -/
theorem Merges.ordered (h : Merges Says ls rs out) (hls : ls ⊆ known) (hrs : rs ⊆ known)
    (hleft : ls.Pairwise fun a b => le a b = true) (hright : rs.Pairwise fun a b => le a b = true) :
    out.Pairwise fun a b => le a b = true := by
  induction h with
  | leftEmpty => exact hright
  | rightEmpty => exact hleft
  | @takeLeft l r ls rs out h rest ih =>
    obtain ⟨hl, hls'⟩ := List.cons_subset.mp hls
    obtain ⟨hbelow, hleft'⟩ := List.pairwise_cons.mp hleft
    have hlr : le l r = true := (hagree _ _ _ h).symm
    refine List.pairwise_cons.mpr ⟨fun x hx => ?_, ih hls' hrs hleft' hright⟩
    rcases List.mem_append.mp (rest.perm.mem_iff.mp hx) with hx | hx
    · exact hbelow x hx
    · rcases List.mem_cons.mp hx with rfl | hx'
      · exact hlr
      · exact hle.trans l hl r (hrs List.mem_cons_self) x (hrs hx) hlr ((List.pairwise_cons.mp hright).1 x hx')
  | @takeRight l r ls rs out h rest ih =>
    obtain ⟨hr, hrs'⟩ := List.cons_subset.mp hrs
    obtain ⟨habove, hright'⟩ := List.pairwise_cons.mp hright
    have hl := hls List.mem_cons_self
    have hnot : le l r = false := (hagree _ _ _ h).symm
    have hrl : le r l = true := (hle.total l hl r hr).resolve_left (by rw [hnot]; exact Bool.false_ne_true)
    refine List.pairwise_cons.mpr ⟨fun x hx => ?_, ih hls hrs' hleft hright'⟩
    rcases List.mem_append.mp (rest.perm.mem_iff.mp hx) with hx | hx
    · rcases List.mem_cons.mp hx with rfl | hx'
      · exact hrl
      · exact hle.trans r hr l hl x (hls hx) hrl ((List.pairwise_cons.mp hleft).1 x hx')
    · exact habove x hx

/-- Elements that are equal keep their order when sorted lists are merged: those on the left come first. -/
theorem Merges.stable (h : Merges Says ls rs out) (hls : ls ⊆ known) (hrs : rs ⊆ known)
    (hleft : ls.Pairwise fun a b => le a b = true) {v : α} (hv : v ∈ known) :
    equals le v out = equals le v (ls ++ rs) := by
  induction h with
  | leftEmpty => rfl
  | rightEmpty => rw [List.append_nil]
  | @takeLeft l r ls rs out h rest ih =>
    have hrest := ih (List.cons_subset.mp hls).2 hrs (List.pairwise_cons.mp hleft).2
    rw [List.cons_append, equals_cons, equals_cons, hrest]
  | @takeRight l r ls rs out h rest ih =>
    obtain ⟨hr, hrs'⟩ := List.cons_subset.mp hrs
    have hl := hls List.mem_cons_self
    have hnot : le l r = false := (hagree _ _ _ h).symm
    have hrest := ih hls hrs' hleft
    rw [equals_append] at hrest ⊢
    rw [equals_cons v r out, equals_cons v r rs]
    by_cases hsame : (le v r && le r v) = true
    · obtain ⟨hvr, -⟩ := (Bool.and_eq_true _ _).mp hsame
      -- an element on the left that is equal to the one on the right would not have been passed over
      have hnone : equals le v (l :: ls) = [] := by
        refine List.filter_eq_nil_iff.mpr fun x hx hequal => ?_
        obtain ⟨-, hxv⟩ := (Bool.and_eq_true _ _).mp hequal
        have hxr : le x r = true := hle.trans x (hls hx) v hv r hr hxv hvr
        have hlr : le l r = true := by
          rcases List.mem_cons.mp hx with rfl | hx'
          · exact hxr
          · exact hle.trans l hl x (hls hx) r hr ((List.pairwise_cons.mp hleft).1 x hx') hxr
        rw [hnot] at hlr
        cases hlr
      rw [if_pos hsame, if_pos hsame, hrest, hnone, List.nil_append, List.nil_append]
    · rw [if_neg hsame, if_neg hsame, hrest]

/-- **Sorting sorts**, if what is said is a total preorder, and elements that are equal keep their order. -/
theorem Sorts.sorted (h : Sorts Says values out) (hvalues : values ⊆ known) :
    out.Pairwise (fun a b => le a b = true) ∧ ∀ v ∈ known, equals le v out = equals le v values := by
  induction h with
  | @short values h =>
    refine ⟨?_, fun _ _ => rfl⟩
    rcases values with _ | ⟨a, _ | ⟨b, rest⟩⟩
    · exact .nil
    · exact List.pairwise_singleton _ _
    · simp at h
  | @halves values left right out half hleft hright hmerge ihleft ihright =>
    have htake := List.Subset.trans (List.take_subset half values) hvalues
    have hdrop := List.Subset.trans (List.drop_subset half values) hvalues
    obtain ⟨hordered, hstable⟩ := ihleft htake
    obtain ⟨hordered', hstable'⟩ := ihright hdrop
    have hls := List.Subset.trans hleft.perm.subset htake
    have hrs := List.Subset.trans hright.perm.subset hdrop
    refine ⟨hmerge.ordered hle hagree hls hrs hordered hordered', fun v hv => ?_⟩
    calc equals le v out = equals le v left ++ equals le v right := by
          rw [hmerge.stable hle hagree hls hrs hordered hv, equals_append]
      _ = equals le v (values.take half ++ values.drop half) := by rw [hstable v hv, hstable' v hv, equals_append]
      _ = equals le v values := by rw [List.take_append_drop]

end

theorem Sorts.sortedFrom (h : Sorts Says values out) (hle : IsPreorderOn le values)
    (hagree : ∀ a b answer, Says a b answer → answer = le a b) : SortedFrom le values out :=
  have hsorted := h.sorted hle hagree (List.Subset.refl _)
  ⟨h.perm, hsorted.1, hsorted.2⟩

/-- The sort of the library is stable in the same sense. -/
theorem sortedFrom_mergeSort (htrans : ∀ a b c, le a b = true → le b c = true → le a c = true)
    (htotal : ∀ a b, (le a b || le b a) = true) (values : List α) : SortedFrom le values (values.mergeSort le) where
  perm := List.mergeSort_perm values le
  ordered := List.pairwise_mergeSort htrans htotal values
  stable v _ := by
    have hequal : (equals le v values).Pairwise fun a b => le a b = true :=
      List.pairwise_of_forall_mem_list fun a ha b hb => by
        have ha := (Bool.and_eq_true _ _).mp (List.mem_filter.mp ha).2
        have hb := (Bool.and_eq_true _ _).mp (List.mem_filter.mp hb).2
        exact htrans a v b ha.2 hb.1
    have hsublist : (equals le v values).Sublist (values.mergeSort le) :=
      List.sublist_mergeSort htrans htotal hequal List.filter_sublist
    have hkept : (equals le v values).Sublist (equals le v (values.mergeSort le)) := by
      have h := hsublist.filter fun w => le v w && le w v
      rwa [equals, List.filter_filter, List.filter_congr (fun _ _ => Bool.and_self _)] at h
    have hlength : (equals le v (values.mergeSort le)).length = (equals le v values).length :=
      ((List.mergeSort_perm values le).filter _).length_eq
    exact (hkept.eq_of_length hlength.symm).symm

end

/-! ## 2. Questions -/

/-- A question to a script: when it was asked, what it came to, and what was done meanwhile. -/
structure Call (κ α : Type) where
  question : κ
  start : Machine
  result : EStateM.Result Stop Machine α
  deeds : Log

/-- How a run ends, apart from what it gives. -/
def voided {α : Type} : EStateM.Result Stop Machine α → EStateM.Result Stop Machine Unit
  | .ok _ m => .ok () m
  | .error s m => .error s m

/-- Questions that are asked one after the other: each on the machine that the one before it left behind, until one
fails. -/
inductive Calls (n : Nat) {κ α : Type} (ask : κ → Eval α) :
    Machine → List (Call κ α) → EStateM.Result Stop Machine Unit → Prop where
  | none {m : Machine} : Calls n ask m [] (.ok () m)
  | answered {q : κ} {m m₁ : Machine} {a : α} {d : Log} {calls : List (Call κ α)}
      {r : EStateM.Result Stop Machine Unit} (hask : (ask q).Does n m (.ok a m₁) d) (rest : Calls n ask m₁ calls r) :
      Calls n ask m (⟨q, m, .ok a m₁, d⟩ :: calls) r
  | failed {q : κ} {m m₁ : Machine} {s : Stop} {d : Log} (hask : (ask q).Does n m (.error s m₁) d) :
      Calls n ask m [⟨q, m, .error s m₁, d⟩] (.error s m₁)

/-- Whether a question was given an answer. -/
def Answered {κ α : Type} (calls : List (Call κ α)) (q : κ) (a : α) : Prop :=
  ∃ call ∈ calls, call.question = q ∧ ∃ m, call.result = .ok a m

section

variable {n : Nat} {κ α : Type} {ask : κ → Eval α} {m m₁ : Machine} {calls calls' : List (Call κ α)}
  {r : EStateM.Result Stop Machine Unit} {q : κ} {a : α}

theorem Calls.append (h : Calls n ask m calls (.ok () m₁)) (h' : Calls n ask m₁ calls' r) :
    Calls n ask m (calls ++ calls') r := by
  generalize hr : (EStateM.Result.ok () m₁ : EStateM.Result Stop Machine Unit) = r₁ at h
  induction h with
  | none =>
    cases hr
    exact h'
  | answered hask _ ih => exact .answered hask (ih hr)
  | failed => cases hr

theorem Answered.left (h : Answered calls q a) : Answered (calls ++ calls') q a :=
  h.imp fun _ h => ⟨List.mem_append_left _ h.1, h.2⟩

theorem Answered.right (h : Answered calls' q a) : Answered (calls ++ calls') q a :=
  h.imp fun _ h => ⟨List.mem_append_right _ h.1, h.2⟩

end

end Sorting

namespace Eval

open Sorting

/-- Whether an action does nothing but ask questions, with what is known of the questions and of its result: it ends as
they end, and its deeds are theirs. -/
structure Asks (n : Nat) {κ α β : Type} (ask : κ → Eval α) (x : Eval β) (P : List (Call κ α) → β → Prop) : Prop where
  calls : ∀ {m : Machine} {r : EStateM.Result Stop Machine β} {d : Log}, x.Does n m r d →
    ∃ calls, Calls n ask m calls (voided r) ∧ d = calls.flatMap Call.deeds ∧ ∀ b m', r = .ok b m' → P calls b

section

variable {n : Nat} {κ α β γ : Type} {ask : κ → Eval α} {x : Eval β} {f : β → Eval γ}
  {P P' : List (Call κ α) → β → Prop} {Q : List (Call κ α) → γ → Prop}

theorem Asks.mono (h : x.Asks n ask P) (hP : ∀ calls b, P calls b → P' calls b) : x.Asks n ask P' := by
  refine ⟨fun hdoes => ?_⟩
  obtain ⟨calls, hcalls, hdeeds, hresult⟩ := h.calls hdoes
  exact ⟨calls, hcalls, hdeeds, fun b m' hr => hP _ _ (hresult b m' hr)⟩

theorem asks_pure {b : β} (hb : P [] b) : (pure b : Eval β).Asks n ask P := by
  refine ⟨fun {m r d} hdoes => ?_⟩
  obtain ⟨rfl, rfl⟩ := hdoes.unique (does_pure n b m)
  refine ⟨[], .none, rfl, fun b' m' hr => ?_⟩
  cases hr
  exact hb

/-- One question. -/
theorem asks_ask (ask : κ → Eval α) (q : κ) : (ask q).Asks n ask fun calls a => Answered calls q a := by
  refine ⟨fun {m r d} hdoes => ⟨[⟨q, m, r, d⟩], ?_, by simp, fun a m' hr => ?_⟩⟩
  · cases r with
    | ok a m₁ => exact .answered hdoes .none
    | error s m₁ => exact .failed hdoes
  · exact ⟨_, List.mem_singleton_self _, rfl, m', hr⟩

/-- Actions one after the other ask their questions one after the other. -/
theorem Asks.bind (hx : x.Asks n ask P) (hf : ∀ calls b, P calls b → (f b).Asks n ask fun calls' => Q (calls ++ calls')) :
    (x >>= f).Asks n ask Q := by
  refine ⟨fun {m r d} hdoes => ?_⟩
  rcases hdoes.of_bind with ⟨s, m₁, herror, rfl⟩ | ⟨b, m₁, d₁, d₂, hok, hrest, rfl⟩
  · obtain ⟨calls, hcalls, hdeeds, -⟩ := hx.calls herror
    exact ⟨calls, hcalls, hdeeds, fun _ _ hr => nomatch hr⟩
  · obtain ⟨calls, hcalls, rfl, hb⟩ := hx.calls hok
    obtain ⟨calls', hcalls', rfl, hresult⟩ := (hf calls b (hb b m₁ rfl)).calls hrest
    exact ⟨calls ++ calls', hcalls.append hcalls', List.flatMap_append.symm, hresult⟩

end

/-! ## 3. Sorting lists -/

/-- The question for the order of two elements: whether the number that a function gives for them is not positive. -/
def inOrder (compare : Value) (pair : Value × Value) : Eval Bool := do
  let order ← toNumber (← callback compare .undefined #[pair.1, pair.2])
  return !(order > 0.0)

section

variable {n : Nat} (keepsOrder : Value → Value → Eval Bool)

/-- To merge asks for the order of the heads. -/
theorem asks_merge : ∀ (count : Nat) (ls rs acc : List Value), ls.length + rs.length ≤ count →
    (merge keepsOrder count ls rs acc).Asks n (fun pair : Value × Value => keepsOrder pair.1 pair.2) fun calls sorted =>
      ∃ out, sorted = acc.reverse ++ out ∧ Merges (fun a b => Answered calls (a, b)) ls rs out
  | count, [], rs, acc, _ => by
    have hmerged : merge keepsOrder count [] rs acc = pure (acc.reverse ++ [] ++ rs) := by cases count <;> rfl
    rw [hmerged]
    exact asks_pure ⟨rs, by simp, .leftEmpty rs⟩
  | count, l :: ls, [], acc, _ => by
    have hmerged : merge keepsOrder count (l :: ls) [] acc = pure (acc.reverse ++ (l :: ls) ++ []) := by
      cases count <;> rfl
    rw [hmerged]
    exact asks_pure ⟨l :: ls, by simp, .rightEmpty _⟩
  | 0, l :: ls, r :: rs, acc, h => by simp at h
  | count + 1, l :: ls, r :: rs, acc, h => by
    simp only [List.length_cons] at h
    unfold merge
    refine (asks_ask (fun pair : Value × Value => keepsOrder pair.1 pair.2) (l, r)).bind fun calls keeps hkeeps => ?_
    cases keeps with
    | true =>
      refine (asks_merge count ls (r :: rs) (l :: acc) (by simp; omega)).mono fun calls' sorted hsorted => ?_
      obtain ⟨out, rfl, hout⟩ := hsorted
      exact ⟨l :: out, by simp, .takeLeft hkeeps.left (hout.mono fun _ _ _ h => h.right)⟩
    | false =>
      refine (asks_merge count (l :: ls) rs (r :: acc) (by simp; omega)).mono fun calls' sorted hsorted => ?_
      obtain ⟨out, rfl, hout⟩ := hsorted
      exact ⟨r :: out, by simp, .takeRight hkeeps.left (hout.mono fun _ _ _ h => h.right)⟩

/-- To sort by merging asks for the order of elements. -/
theorem asks_mergeSort : ∀ (fuel : Nat) (values : List Value), values.length ≤ fuel →
    (mergeSort keepsOrder fuel values).Asks n (fun pair : Value × Value => keepsOrder pair.1 pair.2) fun calls sorted =>
      Sorts (fun a b => Answered calls (a, b)) values sorted
  | 0, values, h => asks_pure (.short (h.trans (Nat.zero_le 1)))
  | fuel + 1, values, h => by
    unfold mergeSort
    split
    · rename_i hshort
      exact asks_pure (.short hshort)
    · rename_i hlong
      refine (asks_mergeSort fuel _ (by rw [List.length_take]; omega)).bind fun calls left hleft => ?_
      refine (asks_mergeSort fuel _ (by rw [List.length_drop]; omega)).bind fun calls' right hright => ?_
      have hcount : left.length + right.length ≤ values.length := by
        rw [hleft.perm.length_eq, hright.perm.length_eq, List.length_take, List.length_drop]
        omega
      refine (asks_merge keepsOrder values.length left right [] hcount).mono fun calls'' sorted hsorted => ?_
      obtain ⟨out, rfl, hout⟩ := hsorted
      exact .halves _ (hleft.mono fun _ _ _ h => h.left) (hright.mono fun _ _ _ h => h.left.right)
        (hout.mono fun _ _ _ h => h.right.right)

end

/-- To take the texts of elements asks for them one by one. -/
theorem asks_keyed (n : Nat) : ∀ (values : List Value) (acc : List (String × Value)),
    (List.mapM.loop (fun v => do return (← toText v, v) : Value → Eval (String × Value)) values acc).Asks n toText
      fun calls keyed => ∃ rest, keyed = acc.reverse ++ rest ∧ rest.map Prod.snd = values ∧
        ∀ entry ∈ rest, Answered calls entry.2 entry.1
  | [], acc => asks_pure ⟨[], by simp, rfl, fun _ h => (List.not_mem_nil h).elim⟩
  | v :: values, acc => by
    have htext : (do return (← toText v, v) : Eval (String × Value)).Asks n toText fun calls entry =>
        entry.2 = v ∧ Answered calls v entry.1 :=
      (asks_ask toText v).bind fun calls text h => asks_pure ⟨rfl, h.left⟩
    refine htext.bind fun calls entry ⟨hv, hentry⟩ => ?_
    refine (asks_keyed n values (entry :: acc)).mono fun calls' keyed hkeyed => ?_
    obtain ⟨rest, rfl, hvalues, hrest⟩ := hkeyed
    refine ⟨entry :: rest, by simp, by rw [List.map_cons, hvalues, hv], List.forall_mem_cons.mpr ⟨?_, fun e he => ?_⟩⟩
    · rw [hv]
      exact hentry.left
    · exact (hrest e he).right

end Eval

namespace Text

/-! ## 4. The order of texts -/

/-- The numbers that texts are compared by. -/
def sortKey (s : String) : List Nat :=
  (units s).toList.map UInt16.toNat

theorem toList_units (s : String) : (units s).toList = s.toList.flatMap charUnits := by
  have hfrom : ∀ (cs : List Char) (acc : Array UInt16),
      (cs.foldl (fun acc c => (charUnits c).foldl Array.push acc) acc).toList = acc.toList ++ cs.flatMap charUnits := by
    intro cs
    induction cs with
    | nil => simp
    | cons c cs ih =>
      intro acc
      rw [List.foldl_cons, ih, List.flatMap_cons, List.foldl_push_eq_append]
      simp
  rw [units, String.foldl_eq_foldl_toList, hfrom]
  rfl

/-- The characters of a text of one-byte characters are ASCII. -/
theorem small_of_isAscii {s : String} (h : isAscii s = true) : ∀ c ∈ s.toList, c.toNat ≤ 127 := by
  have hsizes : ∀ cs : List Char, cs.length ≤ String.utf8Len cs ∧
      (String.utf8Len cs ≤ cs.length → ∀ c ∈ cs, c.utf8Size = 1) := by
    intro cs
    induction cs with
    | nil => exact ⟨Nat.zero_le _, fun _ _ hc => (List.not_mem_nil hc).elim⟩
    | cons c cs ih =>
      have hpos := c.utf8Size_pos
      rw [String.utf8Len_cons, List.length_cons]
      refine ⟨by omega, fun hle => List.forall_mem_cons.mpr ⟨by omega, ih.2 (by omega)⟩⟩
  have hlength : String.utf8Len s.toList ≤ s.toList.length := by
    rw [String.utf8Len_toList, String.length_toList, eq_of_beq h]
  exact fun c hc => Char.utf8Size_eq_one_iff.mp ((hsizes s.toList).2 hlength c hc)

/-- Characters that take one byte are their own units. -/
theorem sortKey_of_isAscii {s : String} (h : isAscii s = true) : sortKey s = s.toList.map Char.toNat := by
  rw [sortKey, toList_units, List.map_flatMap, List.map_eq_flatMap]
  refine List.flatMap_congr fun c hc => ?_
  have hsmall := small_of_isAscii h c hc
  rw [charUnits, if_pos (by omega)]
  simp [Nat.mod_eq_of_lt (show c.toNat < 65536 by omega)]

theorem unitsBefore_iff : ∀ us vs : List UInt16, unitsBefore us vs = true ↔ us.map UInt16.toNat < vs.map UInt16.toNat
  | us, [] => by simp [unitsBefore]
  | [], v :: vs => by simp [unitsBefore]
  | u :: us, v :: vs => by
    rw [unitsBefore, Bool.or_eq_true, Bool.and_eq_true, unitsBefore_iff us vs, List.map_cons, List.map_cons,
      List.cons_lt_cons_iff, decide_eq_true_eq, beq_iff_eq, UInt16.lt_iff_toNat_lt, UInt16.toNat_inj]

theorem toList_lt_iff : ∀ cs ds : List Char, cs < ds ↔ cs.map Char.toNat < ds.map Char.toNat
  | cs, [] => by simp
  | [], d :: ds => by simp
  | c :: cs, d :: ds => by
    have hlt : c < d ↔ c.toNat < d.toNat := Iff.rfl
    have heq : c = d ↔ c.toNat = d.toNat := Char.toNat_inj.symm
    rw [List.map_cons, List.map_cons, List.cons_lt_cons_iff, List.cons_lt_cons_iff, toList_lt_iff cs ds, hlt, heq]

/-- **Texts are compared by their units.** -/
theorem before_iff (s t : String) : before s t = true ↔ sortKey s < sortKey t := by
  unfold before
  split
  · rename_i hascii
    obtain ⟨hs, ht⟩ := (Bool.and_eq_true _ _).mp hascii
    rw [decide_eq_true_eq, String.lt_iff_toList_lt, toList_lt_iff, sortKey_of_isAscii hs, sortKey_of_isAscii ht]
  · exact unitsBefore_iff _ _

theorem not_before_iff (s t : String) : (!before t s) = true ↔ sortKey s ≤ sortKey t := by
  rw [Bool.not_eq_true', ← Bool.not_eq_true, before_iff, not_lt]

end Text

namespace Sorting

/-- The elements of an array that are sorted. -/
def defined (values : Array Value) : List Value :=
  values.toList.filter fun v => !v.isUndefined

/-- The elements of an array that go last. -/
def missing (values : Array Value) : List Value :=
  values.toList.filter Value.isUndefined

/-- Whether an array is another one in order: the elements that are missing go last, and the others are sorted by each
of some orders. -/
structure Arranges (Orders : (Value → Value → Bool) → Prop) (values sorted : Array Value) : Prop where
  parts : ∃ out, sorted = (out ++ missing values).toArray ∧ out.Perm (defined values) ∧
    ∀ le, Orders le → SortedFrom le (defined values) out

theorem Arranges.perm {Orders : (Value → Value → Bool) → Prop} {values sorted : Array Value}
    (h : Arranges Orders values sorted) : sorted.toList.Perm values.toList := by
  obtain ⟨out, rfl, hout, -⟩ := h.parts
  have hparts := List.filter_append_perm (fun v : Value => !v.isUndefined) values.toList
  simp only [Bool.not_not] at hparts
  exact (hout.append_right _).trans hparts

/-- What is asked to sort some elements, how that ends and what is done meanwhile, and the orders that the elements are
sorted by. With a function to compare with, these are the total preorders that its answers agree with. Without one, it is
the order of the texts, if there is one text for each element. -/
inductive Asked (n : Nat) (compare : Value) (values : List Value) (m : Machine) :
    EStateM.Result Stop Machine Unit → Log → ((Value → Value → Bool) → Prop) → Prop where
  | comparisons {calls : List (Call (Value × Value) Bool)} {r : EStateM.Result Stop Machine Unit}
      (hcompare : compare.isUndefined = false) (hcalls : Calls n (Eval.inOrder compare) m calls r) :
      Asked n compare values m r (calls.flatMap Call.deeds) fun le =>
        IsPreorderOn le values ∧ ∀ a b answer, Answered calls (a, b) answer → answer = le a b
  | texts {calls : List (Call Value String)} {r : EStateM.Result Stop Machine Unit}
      (hcompare : compare.isUndefined = true) (hcalls : Calls n Eval.toText m calls r) :
      Asked n compare values m r (calls.flatMap Call.deeds) fun le =>
        ∃ text : Value → String, (∀ v t, Answered calls v t → t = text v) ∧ ∀ v w, le v w = !Text.before (text w) (text v)

/-- Elements that come with their texts are sorted by them. -/
theorem sortedFrom_keyed {le : Value → Value → Bool} {text : Value → String} {keyed : List (String × Value)}
    (hkeyed : ∀ entry ∈ keyed, entry.1 = text entry.2) (hle : ∀ v w, le v w = !Text.before (text w) (text v)) :
    SortedFrom le (keyed.map Prod.snd) ((keyed.mergeSort fun a b => !Text.before b.1 a.1).map Prod.snd) := by
  have hsort : (keyed.mergeSort fun a b => !Text.before b.1 a.1).map Prod.snd = (keyed.map Prod.snd).mergeSort le :=
    List.map_mergeSort fun a ha b hb => by rw [hle, hkeyed a ha, hkeyed b hb]
  rw [hsort]
  refine sortedFrom_mergeSort (fun a b c hab hbc => ?_) (fun a b => ?_) _
  · rw [hle, Text.not_before_iff] at *
    exact hab.trans hbc
  · rw [Bool.or_eq_true, hle, hle, Text.not_before_iff, Text.not_before_iff]
    exact le_total _ _

end Sorting

namespace Eval

open Sorting

variable {n : Nat} {compare : Value} {values : Array Value}

theorem asks_sortValues_compare (n : Nat) (hcompare : compare.isUndefined = false) (values : Array Value) :
    (sortValues values compare).Asks n (inOrder compare) fun calls sorted =>
      ∃ out, sorted = (out ++ missing values).toArray ∧ Sorts (fun a b => Answered calls (a, b)) (defined values) out := by
  have hmissing : values.toList.filter (not ∘ fun v => !v.isUndefined) = missing values :=
    List.filter_congr fun v _ => Bool.not_not _
  rw [sortValues, List.partition_eq_filter_filter, hmissing]
  dsimp only
  rw [hcompare]
  refine (asks_mergeSort (fun a b => inOrder compare (a, b)) _ (defined values) (Nat.le_refl _)).bind fun calls out hout => ?_
  exact asks_pure ⟨out, rfl, hout.mono fun _ _ _ h => h.left⟩

theorem asks_sortValues_text (n : Nat) (hcompare : compare.isUndefined = true) (values : Array Value) :
    (sortValues values compare).Asks n toText fun calls sorted =>
      ∃ keyed : List (String × Value), keyed.map Prod.snd = defined values ∧
        (∀ entry ∈ keyed, Answered calls entry.2 entry.1) ∧
        sorted = ((keyed.mergeSort fun a b => !Text.before b.1 a.1).map Prod.snd ++ missing values).toArray := by
  have hmissing : values.toList.filter (not ∘ fun v => !v.isUndefined) = missing values :=
    List.filter_congr fun v _ => Bool.not_not _
  rw [sortValues, List.partition_eq_filter_filter, hmissing]
  dsimp only
  rw [hcompare]
  rw [if_pos rfl]
  refine (asks_keyed n (defined values) []).bind fun calls keyed hkeyed => ?_
  obtain ⟨rest, hrest, hvalues, hanswered⟩ := hkeyed
  obtain rfl : keyed = rest := hrest
  have hsorted : (pure ((keyed.mergeSort fun a b => !Text.before b.1 a.1).map Prod.snd) : Eval (List Value)).Asks n toText
      fun _ sorted => sorted = (keyed.mergeSort fun a b => !Text.before b.1 a.1).map Prod.snd := asks_pure rfl
  refine hsorted.bind fun calls' sorted hsorted => ?_
  exact asks_pure ⟨keyed, hvalues, fun entry he => (hanswered entry he).left, by rw [hsorted]⟩

/-- **What sorting comes to.** It does nothing but ask, and it fails where a question fails. Else it gives the elements in
another order with those that are missing last, sorted stably by any order that the answers agree with. -/
theorem asked_sortValues {m : Machine} {r : EStateM.Result Stop Machine (Array Value)} {d : Log}
    (h : (sortValues values compare).Does n m r d) :
    ∃ Orders, Asked n compare (defined values) m (voided r) d Orders ∧
      ∀ sorted m', r = .ok sorted m' → Arranges Orders values sorted := by
  cases hcompare : compare.isUndefined with
  | false =>
    obtain ⟨calls, hcalls, rfl, hresult⟩ := (asks_sortValues_compare n hcompare values).calls h
    refine ⟨_, .comparisons hcompare hcalls, fun sorted m' hr => ?_⟩
    obtain ⟨out, rfl, hout⟩ := hresult sorted m' hr
    exact ⟨out, rfl, hout.perm, fun le hle => hout.sortedFrom hle.1 hle.2⟩
  | true =>
    obtain ⟨calls, hcalls, rfl, hresult⟩ := (asks_sortValues_text n hcompare values).calls h
    refine ⟨_, .texts hcompare hcalls, fun sorted m' hr => ?_⟩
    obtain ⟨keyed, hvalues, hkeyed, rfl⟩ := hresult sorted m' hr
    refine ⟨_, rfl, ?_, fun le ⟨text, htext, hle⟩ => ?_⟩
    · rw [← hvalues]
      exact (List.mergeSort_perm keyed _).map _
    · rw [← hvalues]
      exact sortedFrom_keyed (fun entry he => htext _ _ (hkeyed entry he)) hle

end Eval

/-! ## 5. Arrays -/

namespace Object

theorem hasElements_store {o : Object} (h : o.elements.isSome = true) (key : Key) (p : Property) :
    (o.store key p).elements.isSome = true := by
  unfold store
  split <;> exact h

theorem hasElements_insert {o : Object} (h : o.elements.isSome = true) (name : String) (p : Property) :
    (o.insert name p).elements.isSome = true := by
  unfold insert
  split
  · split
    · rfl
    · exact hasElements_store h _ p
  · exact hasElements_store h _ p

theorem hasElements_define {o : Object} (h : o.elements.isSome = true) (key : Key) (d : Descriptor) :
    (o.define key d).1.elements.isSome = true := by
  have hrest {o' : Object} (hrest : ∃ properties, o' = { o with properties := properties }) :
      o'.elements.isSome = true := by
    obtain ⟨properties, rfl⟩ := hrest
    exact h
  cases key with
  | symbol s => exact hrest (o.defineStored_rest _ d)
  | string name =>
    simp only [define, defineLength, defineElement]
    repeat' split
    all_goals first | exact h | rfl | exact hrest (o.defineNamed_rest name d)

theorem hasElements_delete {o : Object} (h : o.elements.isSome = true) (key : Key) :
    (o.delete key).1.elements.isSome = true := by
  have hstored (key : Key) : (o.deleteStored key).1.elements.isSome = true := by
    obtain ⟨properties, hrest⟩ := o.deleteStored_rest key
    rw [hrest]
    exact h
  cases key with
  | symbol s => exact hstored _
  | string name =>
    simp only [delete, deleteNamed]
    repeat' split
    all_goals first | exact h | rfl | exact hstored _

/-- An object that has elements keeps having some, whatever is written to it. -/
theorem Written.hasElements {α : Type} {f : Object → Object × α} (hf : Written f) {o : Object}
    (h : o.elements.isSome = true) : (f o).1.elements.isSome = true := by
  cases hf with
  | asked hf =>
    cases hf with
    | define key d => exact hasElements_define h key d
    | delete key => exact hasElements_delete h key
    | freeze | close | clear | time => exact h
    | elements f =>
      dsimp only [changeElements]
      split
      · exact h
      · rfl
    | entries hf =>
      rw [(hf o).rest]
      exact h
  | setUp hg hf =>
    rw [hf]
    clear hf
    induction hg generalizing o with
    | store key p => exact hasElements_store h key p
    | insert name p => exact hasElements_insert h name p
    | become sort hg =>
      obtain ⟨_, _, _, _, _, heq, hkeeps⟩ := hg o
      rw [heq]
      exact hkeeps h
    | andThen _ _ ih ih' => exact ih' (ih h)

theorem Declares.hasElements {f : Object → Object} (hf : Declares f) {o : Object} (h : o.elements.isSome = true) :
    (f o).elements.isSome = true := by
  cases hf with
  | set name v => exact hasElements_insert h name _
  | add name =>
    dsimp only
    split
    · exact h
    · exact hasElements_insert h name _

end Object

/-- An array stays one in every event. -/
theorem Event.hasElements {e : Embedding} {event : Event} {id : ObjectId} (h : event.Allowed e)
    (hid : id.index < event.machine.heap.size) (helements : (event.machine.objectAt id).elements.isSome = true) :
    (event.after.objectAt id).elements.isSome = true := by
  rcases event.changes h hid with heq | ⟨prototype, heq⟩ | ⟨α, f, m, rfl, hw, heq⟩ | ⟨scope, f, m, rfl, hf, hdata, heq⟩
  · rw [heq]
    exact helements
  · rw [heq]
    exact helements
  · rw [heq]
    exact hw.hasElements helements
  · rw [heq]
    exact hf.hasElements helements

namespace Eval

variable {n : Nat} {m m' : Machine} {id : ObjectId} {d : Log}

/-- An array stays one during a run. -/
theorem Does.hasElements {α : Type} {x : Eval α} {r : EStateM.Result Stop Machine α} (h : x.Does n m r d)
    (hallowed : ∀ event ∈ d, ∃ e, event.Allowed e) (hid : id.index < m.heap.size)
    (helements : (m.objectAt id).elements.isSome = true) :
    id.index < (finalMachine r).heap.size ∧ ((finalMachine r).objectAt id).elements.isSome = true := by
  refine h.invariant (I := fun t => id.index < t.heap.size ∧ (t.objectAt id).elements.isSome = true) ?_ ?_
    ⟨hid, helements⟩
  · rintro t t' hsame ht
    rwa [hsame.objectAt, hsame.heap]
  · rintro event he ⟨hid, helements⟩
    obtain ⟨e, hevent⟩ := hallowed event he
    exact ⟨hid.trans_le event.size_le_after, event.hasElements hevent hid helements⟩

/-- A function to sort with is used as it is. -/
theorem does_compareArgument {args : Array Value} (method : String)
    (hcompare : (argument args 0).isUndefined = true ∨
      ∃ f c, argument args 0 = .object f ∧ (m.objectAt f).callable = some c) :
    (compareArgument args method).Does n m (.ok (argument args 0) m) [] := by
  rcases hcompare with hundefined | ⟨f, c, hf, hc⟩
  · rw [compareArgument]
    dsimp only
    rw [hundefined]
    exact ⟨rfl, rfl⟩
  · have hcallable : (isCallable (.object f)).Does n m (.ok true m) [] := by
      have hread : (isCallable (.object f)).Does n m (.ok (m.objectAt f).callable.isSome m) [] := ⟨rfl, rfl⟩
      rwa [hc] at hread
    have hrequire : (requireCallable (.object f) method).Does n m (.ok () m) [] := hcallable.bind (does_pure n () m)
    rw [compareArgument]
    dsimp only
    rw [hf]
    exact hrequire.bind (does_pure n _ m)

/-- The elements of an array. -/
theorem does_elementsOf {es : Array Value} (hes : (m.objectAt id).elements = some es) :
    (elementsOf (.object id)).Does n m (.ok es m) [] := by
  have hlist : (listOf (.object id)).Does n m (.ok es m) [] := by
    refine (does_read n _ m).bind_nil ?_
    rw [hes]
    exact does_pure n es m
  exact (does_pure n id m).bind hlist

/-- An object that may be changed is left as it is. -/
theorem does_checkMutable (h : (checkMutable id).Does n m (.ok () m') d) : m' = m ∧ d = [] := by
  have h := h.of_read
  cases hlabel : m.realm.label? id with
  | none =>
    rw [hlabel] at h
    obtain ⟨hresult, rfl⟩ := h.unique (does_pure n () m)
    cases hresult
    exact ⟨rfl, rfl⟩
  | some name =>
    rw [hlabel] at h
    obtain ⟨p, m₂, -, h⟩ := run_bind_ok h.result
    unfold raise at h
    split at h
    · cases h
    · obtain ⟨_, _, _, h⟩ := run_bind_ok h
      cases h

/-- To replace the elements of an array is one deed. -/
theorem does_replaceElements {sorted : Array Value} (hid : id.index < m.heap.size)
    (helements : (m.objectAt id).elements.isSome = true)
    (h : (changeElements (.object id) fun _ => (sorted, ())).Does n m (.ok () m') d) :
    (∃ deed, d = [deed]) ∧ (m'.objectAt id).elements = some sorted := by
  obtain ⟨d', h, rfl⟩ := (does_pure n id m).rest h
  rcases h.of_bind with ⟨s, _, _, herror⟩ | ⟨⟨⟩, m₁, d₁, d₂, hmutable, hrest, rfl⟩
  · cases herror
  obtain ⟨rfl, rfl⟩ := does_checkMutable hmutable
  have hrest := hrest.of_read
  dsimp only at hrest
  cases hfrozen : (m₁.objectAt id).frozen with
  | true =>
    rw [hfrozen] at hrest
    obtain ⟨_, _, _, hthrow⟩ := run_bind_ok hrest.result
    cases hthrow
  | false =>
    rw [hfrozen, helements] at hrest
    obtain ⟨d', hupdate, rfl⟩ := (does_pure n () m₁).rest hrest
    refine ⟨⟨_, hupdate.deeds.symm⟩, ?_⟩
    have hresult : finalMachine ((updateObject id fun o => o.changeElements fun _ => (sorted, ())).run (answers n) m₁) =
        m' :=
      congrArg finalMachine hupdate.result
    have hobject : m'.objectAt id = ((m₁.objectAt id).changeElements fun _ => (sorted, ())).1 := by
      rw [← hresult]
      exact State.objectAt_changeObject hid fun o => o.changeElements fun _ => (sorted, ())
    rw [hobject]
    simp [Object.changeElements, hfrozen, Option.isNone_eq_false_iff.mpr helements]

end Eval

namespace ArrayMethod

open Sorting

/-- Where a method puts the elements that it has sorted: back into the array, or into a new one. -/
def place (method : ArrayMethod) (id : ObjectId) (sorted : Array Value) : Eval Value :=
  match method with
  | .toSorted => Eval.newArray sorted
  | _ => do
    Eval.changeElements (.object id) fun _ => (sorted, ())
    pure (.object id)

theorem run_eq_sort {method : ArrayMethod} (hmethod : method = .sort ∨ method = .toSorted) (id : ObjectId)
    (args : Array Value) : ∃ name, method.run (.object id) args = (do
      let compare ← Eval.compareArgument args name
      let es ← Eval.elementsOf (.object id)
      let sorted ← Eval.sortValues es compare
      method.place id sorted) := by
  rcases hmethod with rfl | rfl
  · exact ⟨_, rfl⟩
  · exact ⟨_, rfl⟩

/-- To put sorted elements into their place is one deed. -/
theorem place_elements {method : ArrayMethod} (hmethod : method = .sort ∨ method = .toSorted) {n : Nat} {m m' : Machine}
    {id : ObjectId} {sorted : Array Value} {v : Value} {d : Log} (hid : id.index < m.heap.size)
    (helements : (m.objectAt id).elements.isSome = true) (h : (method.place id sorted).Does n m (.ok v m') d) :
    ∃ target deed, v = .object target ∧ (method = .sort → target = id) ∧ d = [deed] ∧
      (m'.objectAt target).elements = some sorted := by
  rcases hmethod with rfl | rfl
  · rcases h.of_bind with ⟨s, _, _, herror⟩ | ⟨⟨⟩, m₁, d₁, d₂, hreplace, hlast, rfl⟩
    · cases herror
    obtain ⟨hresult, rfl⟩ := hlast.unique (Eval.does_pure n _ m₁)
    cases hresult
    obtain ⟨⟨deed, rfl⟩, hsorted⟩ := Eval.does_replaceElements hid helements hreplace
    exact ⟨id, deed, rfl, fun _ => rfl, rfl, hsorted⟩
  · have hnew : (Eval.newArray sorted).Does n m _ _ := ⟨rfl, rfl⟩
    obtain ⟨hresult, rfl⟩ := Eval.Does.unique h hnew
    cases hresult
    refine ⟨_, _, rfl, nofun, rfl, ?_⟩
    rw [State.objectAt_push, if_pos rfl]

/-- **What `sort` and `toSorted` do.** They ask for the order of the elements that the array has at the start, or for
their texts. If a question fails, they fail with it and have done nothing of their own. Else what is left to do is to put
the elements into their place, in order, whatever the answers were and whatever has become of the array meanwhile. -/
theorem sorts {method : ArrayMethod} (hmethod : method = .sort ∨ method = .toSorted) {n : Nat} {m : Machine}
    {id : ObjectId} {args es : Array Value} {r : EStateM.Result Stop Machine Value} {d : Log} (hm : m.WellFormed)
    (hpresent : ∀ id' ∈ id :: args.toList.flatMap Value.addresses, m.Present id')
    (hes : (m.objectAt id).elements = some es)
    (hcompare : (argument args 0).isUndefined = true ∨
      ∃ f c, argument args 0 = .object f ∧ (m.objectAt f).callable = some c)
    (h : (method.run (.object id) args).Does n m r d) :
    ∃ r₁ d₁ Orders, Asked n (argument args 0) (defined es) m r₁ d₁ Orders ∧
      (∀ s m₁, r₁ = .error s m₁ → r = .error s m₁ ∧ d = d₁) ∧
      ∀ m₁, r₁ = .ok () m₁ → ∃ sorted d₂, Arranges Orders es sorted ∧ sorted.toList.Perm es.toList ∧
        (method.place id sorted).Does n m₁ r d₂ ∧ d = d₁ ++ d₂ ∧
        ∀ v m', r = .ok v m' → ∃ target deed, v = .object target ∧ (method = .sort → target = id) ∧ d₂ = [deed] ∧
          (m'.objectAt target).elements = some sorted := by
  have hallowed : ∀ event ∈ d, ∃ e, event.Allowed e := by
    refine h.allowed hm fun e he => ?_
    have hreceiver : Within e (Value.object id) := (he.object (hpresent id List.mem_cons_self)).1
    have hargs : Within e args := (within_values_iff args).mpr fun id' hid' =>
      (he.object (hpresent id' (List.mem_cons_of_mem _ hid'))).1
    exact ⟨_, _, _, tracks_run method hreceiver hargs⟩
  obtain ⟨name, hparts⟩ := run_eq_sort hmethod id args
  rw [hparts] at h
  obtain ⟨d, h, rfl⟩ := (Eval.does_compareArgument name hcompare).rest h
  obtain ⟨d, h, rfl⟩ := (Eval.does_elementsOf hes).rest h
  rcases h.of_bind with ⟨s, m₁, hsort, rfl⟩ | ⟨sorted, m₁, d₁, d₂, hsort, hplace, rfl⟩
  · obtain ⟨Orders, hasked, -⟩ := Eval.asked_sortValues hsort
    refine ⟨.error s m₁, d, Orders, hasked, fun _ _ hr => ?_, fun _ hr => ?_⟩
    · cases hr
      exact ⟨rfl, rfl⟩
    · cases hr
  · obtain ⟨Orders, hasked, hresult⟩ := Eval.asked_sortValues hsort
    have harranges := hresult sorted m₁ rfl
    refine ⟨.ok () m₁, d₁, Orders, hasked, fun _ _ hr => ?_, fun _ hr => ?_⟩
    · cases hr
    · cases hr
      refine ⟨sorted, d₂, harranges, harranges.perm, hplace, rfl, fun v m' hr => ?_⟩
      subst hr
      obtain ⟨hid, helements⟩ := hsort.hasElements (fun event he => hallowed event (List.mem_append_left _ he))
        (hpresent id List.mem_cons_self).1 (by rw [hes]; rfl)
      exact place_elements hmethod hid helements hplace

/-- A machine with empty objects in the place of the intrinsic ones, one for bindings, the function `isArray` and an
array that holds itself, `undefined` and `null`. -/
def sortMachine : Machine :=
  { heap := Array.replicate 23 {} ++ #[Eval.functionObject (.builtin (.array .isArray)),
      { sort := .array, elements := some #[.object ⟨24⟩, .undefined, .null] }]
    bindings := ⟨22⟩ }

theorem sortMachine_wellFormed : sortMachine.WellFormed := by
  refine State.wellFormed_of_empty rfl rfl (fun i => Nat.lt_of_lt_of_le i.index_lt (by decide)) (by decide +kernel)
    (by decide +kernel) fun o ho c hc => ?_
  simp only [sortMachine, Array.mem_append, List.mem_toArray, List.mem_cons, List.not_mem_nil, or_false] at ho
  rcases ho with ho | rfl | rfl
  · obtain rfl := Array.eq_of_mem_replicate ho
    cases hc
  · cases hc
    trivial
  · cases hc

/-- The array is sorted with `isArray`, which is no order of its elements; it comes back with all of them. -/
theorem sorts_isArray : ∃ m' sorted,
    (ArrayMethod.sort.run (.object ⟨24⟩) #[.object ⟨23⟩]).run (Eval.answers 1) sortMachine = .ok (.object ⟨24⟩) m' ∧
      (m'.objectAt ⟨24⟩).elements = some sorted ∧ sorted.toList.Perm [.object ⟨24⟩, .undefined, .null] := by
  have hreturns : Eval.returns ((ArrayMethod.sort.run (.object ⟨24⟩) #[.object ⟨23⟩]).run (Eval.answers 1)
      sortMachine) = true := by decide +kernel
  obtain ⟨v, m', hrun⟩ := Eval.exists_of_returns hreturns
  obtain ⟨r₁, d₁, Orders, hasked, herror, hok⟩ := sorts (.inl rfl) sortMachine_wellFormed
    (State.present_of_empty rfl (by decide)) rfl (.inr ⟨⟨23⟩, .builtin (.array .isArray), rfl, rfl⟩) ⟨hrun, rfl⟩
  cases r₁ with
  | error s m₁ => exact absurd (herror s m₁ rfl).1 nofun
  | ok u m₁ =>
    obtain ⟨sorted, d₂, -, hperm, -, -, hplace⟩ := hok m₁ rfl
    obtain ⟨target, deed, rfl, htarget, -, helements⟩ := hplace v m' rfl
    obtain rfl := htarget rfl
    exact ⟨m', sorted, hrun, helements, hperm⟩

end ArrayMethod

end GuestScript
