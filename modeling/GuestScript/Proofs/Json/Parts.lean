import GuestScript.Json.Basic
import Mathlib.Data.List.Forall2
import Mathlib.Data.Option.Basic

/-!
# The parts of documents

Readers of documents stop at a depth, so what they give back is stated for documents that nest less than a bound.

What is asked of a document is asked of every part of it: that the members of each object have different names, and
that each number is one that can be written and read back. Two documents are *alike* when they differ at most in the
order of the members of objects and in how numbers are held.
-/

/-! ## 1. Nesting -/

namespace GuestScript.Json

mutual

/-- How many arrays and objects stand inside each other in a document. -/
def nesting : Json → Nat
  | array items => nestingOfItems items + 1
  | object members => nestingOfMembers members + 1
  | _ => 0

/-- How deep the deepest of some items nests. -/
def nestingOfItems : List Json → Nat
  | [] => 0
  | j :: rest => max j.nesting (nestingOfItems rest)

/-- How deep the deepest value of some members nests. -/
def nestingOfMembers : List (String × Json) → Nat
  | [] => 0
  | (_, j) :: rest => max j.nesting (nestingOfMembers rest)

end

@[simp]
theorem nesting_array (items : List Json) : (array items).nesting = nestingOfItems items + 1 :=
  rfl

@[simp]
theorem nesting_object (members : List (String × Json)) :
    (object members).nesting = nestingOfMembers members + 1 :=
  rfl

@[simp]
theorem nesting_null : null.nesting = 0 :=
  rfl

@[simp]
theorem nesting_bool (b : Bool) : (bool b).nesting = 0 :=
  rfl

@[simp]
theorem nesting_number (n : Numeral) : (number n).nesting = 0 :=
  rfl

@[simp]
theorem nesting_string (s : String) : (string s).nesting = 0 :=
  rfl

@[simp]
theorem nestingOfItems_nil : nestingOfItems [] = 0 :=
  rfl

@[simp]
theorem nestingOfItems_cons (j : Json) (rest : List Json) :
    nestingOfItems (j :: rest) = max j.nesting (nestingOfItems rest) :=
  rfl

@[simp]
theorem nestingOfMembers_nil : nestingOfMembers [] = 0 :=
  rfl

@[simp]
theorem nestingOfMembers_cons (name : String) (j : Json) (rest : List (String × Json)) :
    nestingOfMembers ((name, j) :: rest) = max j.nesting (nestingOfMembers rest) :=
  rfl

@[simp]
theorem nestingOfMembers_append (front back : List (String × Json)) :
    nestingOfMembers (front ++ back) = max (nestingOfMembers front) (nestingOfMembers back) := by
  induction front with
  | nil => simp
  | cons e rest ih =>
    obtain ⟨name, j⟩ := e
    simp [ih, Nat.max_assoc]

end GuestScript.Json

namespace GuestScript.Json

/-! ## 2. Parts -/

/-- The first document is the second one or stands in it. -/
inductive Part : Json → Json → Prop where
  | refl (j : Json) : Part j j
  | item {i j : Json} {items : List Json} (hj : j ∈ items) (h : Part i j) : Part i (.array items)
  | member {i : Json} {e : String × Json} {members : List (String × Json)} (he : e ∈ members) (h : Part i e.2) :
    Part i (.object members)

/-- What holds of a document if it holds of its items and of the values of its members holds of every document. -/
@[elab_as_elim]
theorem induction {motive : Json → Prop} (null : motive .null) (bool : ∀ b, motive (.bool b))
    (number : ∀ n, motive (.number n)) (string : ∀ s, motive (.string s))
    (array : ∀ items, (∀ j ∈ items, motive j) → motive (.array items))
    (object : ∀ members, (∀ e ∈ members, motive e.2) → motive (.object members)) (j : Json) : motive j :=
  @Json.rec motive (fun items => ∀ j ∈ items, motive j) (fun members => ∀ e ∈ members, motive e.2)
    (fun e => motive e.2) null bool number string array object
    (by simp) (fun _ _ hhead htail => by simpa using ⟨hhead, htail⟩)
    (by simp) (fun _ _ hhead htail => List.forall_mem_cons.mpr ⟨hhead, htail⟩)
    (fun _ _ h => h) j

theorem nesting_le_of_item {j : Json} {items : List Json} (h : j ∈ items) : j.nesting ≤ nestingOfItems items := by
  induction items with
  | nil => cases h
  | cons i rest ih =>
    rw [nestingOfItems_cons]
    rcases List.mem_cons.mp h with rfl | h
    · exact Nat.le_max_left _ _
    · exact Nat.le_trans (ih h) (Nat.le_max_right _ _)

theorem nesting_le_of_member {e : String × Json} {members : List (String × Json)} (h : e ∈ members) :
    e.2.nesting ≤ nestingOfMembers members := by
  induction members with
  | nil => cases h
  | cons d rest ih =>
    rw [nestingOfMembers_cons]
    rcases List.mem_cons.mp h with rfl | h
    · exact Nat.le_max_left _ _
    · exact Nat.le_trans (ih h) (Nat.le_max_right _ _)

theorem nestingOfMembers_eq (members : List (String × Json)) :
    nestingOfMembers members = nestingOfItems (members.map Prod.snd) := by
  induction members with
  | nil => simp
  | cons e rest ih =>
    obtain ⟨name, j⟩ := e
    simp [ih]

/-! ## 3. How many values a document has -/

mutual

/-- How many values stand in a document, itself included. -/
def size : Json → Nat
  | array items => sizeOfItems items + 1
  | object members => sizeOfMembers members + 1
  | _ => 1

/-- How many values stand in some items. -/
def sizeOfItems : List Json → Nat
  | [] => 0
  | j :: rest => j.size + sizeOfItems rest

/-- How many values stand in some members. -/
def sizeOfMembers : List (String × Json) → Nat
  | [] => 0
  | (_, j) :: rest => j.size + sizeOfMembers rest

end

@[simp]
theorem size_array (items : List Json) : (array items).size = sizeOfItems items + 1 :=
  rfl

@[simp]
theorem size_object (members : List (String × Json)) : (object members).size = sizeOfMembers members + 1 :=
  rfl

@[simp]
theorem sizeOfItems_nil : sizeOfItems [] = 0 :=
  rfl

@[simp]
theorem sizeOfItems_cons (j : Json) (rest : List Json) : sizeOfItems (j :: rest) = j.size + sizeOfItems rest :=
  rfl

@[simp]
theorem sizeOfMembers_nil : sizeOfMembers [] = 0 :=
  rfl

@[simp]
theorem sizeOfMembers_cons (e : String × Json) (rest : List (String × Json)) :
    sizeOfMembers (e :: rest) = e.2.size + sizeOfMembers rest :=
  rfl

/-- The order of members does not matter for their size. -/
theorem sizeOfMembers_perm {l l' : List (String × Json)} (h : l.Perm l') : sizeOfMembers l = sizeOfMembers l' := by
  induction h with
  | nil => rfl
  | cons e _ ih => simp [ih]
  | swap d e l => simp only [sizeOfMembers_cons]; omega
  | trans _ _ ih ih' => exact ih.trans ih'

/-! ## 4. Documents that are alike -/

/-- Whether documents are the same as maps, lists, texts, truth values and doubles. -/
inductive Alike : Json → Json → Prop where
  | null : Alike .null .null
  | bool (b : Bool) : Alike (.bool b) (.bool b)
  /-- Numbers are compared as doubles, and zero is the same with either sign. -/
  | number {m n : Numeral} (h : (m.toFloat == n.toFloat) = true) : Alike (.number m) (.number n)
  | string (s : String) : Alike (.string s) (.string s)
  | array {items items' : List Json} (h : List.Forall₂ Alike items items') : Alike (.array items) (.array items')
  /-- Objects have the same names, in whatever order, and under each name values that are alike. -/
  | object {members members' : List (String × Json)}
    (h : ∀ name, Option.Rel Alike (members.lookup name) (members'.lookup name)) :
    Alike (.object members) (.object members')

theorem lookup_eq_some_of_mem {α : Type} {l : List (String × α)} (hnames : (l.map Prod.fst).Nodup) {e : String × α}
    (he : e ∈ l) : l.lookup e.1 = some e.2 := by
  induction l with
  | nil => cases he
  | cons d rest ih =>
    rw [List.map_cons, List.nodup_cons] at hnames
    rcases List.mem_cons.mp he with rfl | he
    · exact List.lookup_cons_self
    · have hne : (e.1 == d.1) = false := beq_eq_false_iff_ne.mpr fun heq => hnames.1 (heq ▸ List.mem_map_of_mem he)
      rw [List.lookup_cons, hne]
      exact ih hnames.2 he

theorem lookup_eq_none_of_not_mem {α : Type} {l : List (String × α)} {name : String} (h : name ∉ l.map Prod.fst) :
    l.lookup name = none := by
  rw [List.lookup_eq_none_iff]
  intro e he
  exact bne_iff_ne.mpr fun heq => h (heq ▸ List.mem_map_of_mem he)

/-- What stands under a name does not hang on the order, if names are different. -/
theorem lookup_perm {α : Type} {l l' : List (String × α)} (h : l.Perm l') (hnames : (l.map Prod.fst).Nodup)
    (name : String) : l.lookup name = l'.lookup name := by
  have hnames' : (l'.map Prod.fst).Nodup := (h.map Prod.fst).nodup_iff.mp hnames
  by_cases hname : name ∈ l.map Prod.fst
  · obtain ⟨e, he, rfl⟩ := List.mem_map.mp hname
    rw [lookup_eq_some_of_mem hnames he, lookup_eq_some_of_mem hnames' (h.mem_iff.mp he)]
  · have hname' : name ∉ l'.map Prod.fst := fun h' => hname ((h.map Prod.fst).mem_iff.mpr h')
    rw [lookup_eq_none_of_not_mem hname, lookup_eq_none_of_not_mem hname']

/-- Members with the same names and related values are related under each name. -/
theorem lookup_rel {R : Json → Json → Prop} {l l' : List (String × Json)}
    (h : List.Forall₂ (fun d e => d.1 = e.1 ∧ R d.2 e.2) l l') (name : String) :
    Option.Rel R (l.lookup name) (l'.lookup name) := by
  induction h with
  | nil => exact .none
  | @cons d e l l' hde _ ih =>
    rw [List.lookup_cons, List.lookup_cons, ← hde.1]
    split
    · exact .some hde.2
    · exact ih

/-- A member with a new name is put behind the others. -/
theorem insertMember_of_not_mem {name : String} {value : Json} {members : List (String × Json)}
    (h : name ∉ members.map Prod.fst) : insertMember name value members = members ++ [(name, value)] := by
  induction members with
  | nil => rfl
  | cons e rest ih =>
    rw [List.map_cons, List.mem_cons, not_or] at h
    rw [insertMember, if_neg (Ne.symm h.1), ih h.2, List.cons_append]

end GuestScript.Json
