import GuestScript.Proofs.Json.Inherited
import GuestScript.Proofs.Json.Reading

/-!
# Documents there and back

A host that makes a value of a document and asks for the document of this value gets a document that is like the
first one. The two halves meet at the text that scripts write for the document: the value is written as this text, and
the text is read as a document that is alike.

What is asked of the machine is that the value inherits nothing that converts it, as on the first machine, and that a
step may be counted for each value in the document. Names that mean something to scripts, such as `__proto__` and
`toJSON`, are names like all others here: the members of a document become own properties, and none of them is a
function.
-/

namespace GuestScript

namespace Json

/-! ## 1. The text is read -/

/-- The members of an object keep their order when they are read, if they have different names. -/
theorem insertMembers_of_distinct {acc members : List (String × Json)}
    (h : (acc.map Prod.fst ++ members.map Prod.fst).Nodup) : insertMembers acc members = acc ++ members := by
  induction members generalizing acc with
  | nil => simp [insertMembers]
  | cons e members ih =>
    obtain ⟨name, j⟩ := e
    have hnew : name ∉ acc.map Prod.fst := fun hmem =>
      (List.nodup_append.mp h).2.2 name hmem name (by simp) rfl
    have hrest : insertMembers (acc ++ [(name, j)]) members = acc ++ [(name, j)] ++ members := ih (by simpa using h)
    rw [List.append_assoc] at hrest
    rw [← List.singleton_append, ← hrest, ← insertMember_of_not_mem hnew]
    rfl

/-- Parts on one line between brackets. -/
theorem toList_wrap (opening closing : String) (parts : List String) (outer : String) :
    ((styleOf "").wrap opening closing parts outer).toList =
      opening.toList ++ ([','].intercalate (parts.map String.toList) ++ closing.toList) := by
  unfold Eval.JsonStyle.wrap
  cases parts with
  | nil => simp [String.toList_append, List.intercalate]
  | cons part parts =>
    have hgap : (styleOf "").gap.isEmpty = true := rfl
    rw [if_neg (by simp), if_pos hgap, String.toList_append, String.toList_append, String.toList_intercalate,
      List.append_assoc]
    rfl

/-- Whether the text that scripts write for a number is read as a number of the same value. -/
def Numeral.Readable (n : Numeral) : Prop :=
  n.toFloat.isFinite = true ∧
    ∃ n', Json.parse (Number.text n.toFloat) = .ok (.number n') ∧ (n'.toFloat == n.toFloat) = true

/-- Whether the text of a document is read as a document that is alike. -/
def Rereads (depth : Nat) (j : Json) : Prop :=
  ∀ indent, ∃ w, Reads depth (scriptText "" indent j).toList w ∧ Alike w j

/-- The items of an array are read one by one. -/
theorem rereads_items {depth : Nat} {items : List Json} (h : ∀ j ∈ items, Rereads depth j) (indent : String) :
    ∃ ws, List.Forall₂ (Reads depth) ((items.map (scriptText "" indent)).map String.toList) ws ∧
      List.Forall₂ Alike ws items := by
  induction items with
  | nil => exact ⟨[], .nil, .nil⟩
  | cons j items ih =>
    obtain ⟨w, hw, halike⟩ := h j (by simp) indent
    obtain ⟨ws, hws, hall⟩ := ih fun i hi => h i (by simp [hi])
    exact ⟨w :: ws, .cons hw hws, .cons halike hall⟩

/-- The members of an object are read one by one. -/
theorem rereads_members {depth : Nat} {members : List (String × Json)} (h : ∀ e ∈ members, Rereads depth e.2)
    (indent : String) :
    ∃ ws, List.Forall₂ (ReadsMember depth) (members.map fun e => (e.1, (scriptText "" indent e.2).toList)) ws ∧
      List.Forall₂ (fun d e => d.1 = e.1 ∧ Alike d.2 e.2) ws members := by
  induction members with
  | nil => exact ⟨[], .nil, .nil⟩
  | cons e members ih =>
    obtain ⟨w, hw, halike⟩ := h e (by simp) indent
    obtain ⟨ws, hws, hall⟩ := ih fun d hd => h d (by simp [hd])
    exact ⟨(e.1, w) :: ws, .cons ⟨rfl, hw⟩ hws, .cons ⟨rfl, halike⟩ hall⟩

theorem rereads_array {depth : Nat} {items : List Json} (h : ∀ j ∈ items, Rereads depth j) :
    Rereads (depth + 1) (.array items) := by
  intro indent
  obtain ⟨ws, hws, hall⟩ := rereads_items h (indent ++ "")
  refine ⟨.array ws, ?_, .array hall⟩
  rw [scriptText, toList_wrap, scriptItems_eq]
  exact reads_array hws

theorem rereads_object {depth : Nat} {members : List (String × Json)} (hnames : (members.map Prod.fst).Nodup)
    (h : ∀ e ∈ members, Rereads depth e.2) : Rereads (depth + 1) (.object members) := by
  intro indent
  have hlisted := Object.listed_perm members
  obtain ⟨ws, hws, hall⟩ := rereads_members (fun e he => h e (hlisted.mem_iff.mp he)) (indent ++ "")
  have hsame : ws.map Prod.fst = (Object.listed members).map Prod.fst := by
    have hfst : List.Forall₂ (fun d e : String × Json => d.1 = e.1) ws (Object.listed members) :=
      hall.imp fun _ _ hde => hde.1
    rwa [← List.forall₂_eq_eq_eq, List.forall₂_map_left_iff, List.forall₂_map_right_iff]
  have hdistinct : ((Object.listed members).map Prod.fst).Nodup := (hlisted.map Prod.fst).nodup_iff.mpr hnames
  refine ⟨.object (insertMembers [] ws), ?_, ?_⟩
  · have htext : (scriptText "" indent (.object members)).toList = '{' :: ([','].intercalate
        (((Object.listed members).map fun e => (e.1, (scriptText "" (indent ++ "") e.2).toList)).map memberText) ++
          ['}']) := by
      rw [scriptText, toList_wrap, listed_scriptMembers, List.map_map, List.map_map, List.map_map]
      simp [Function.comp_def, memberText, separator]
    rw [htext]
    exact reads_object hws
  · rw [insertMembers_of_distinct (by simpa [hsame] using hdistinct), List.nil_append]
    refine .object fun name => ?_
    rw [← lookup_perm hlisted hdistinct]
    exact lookup_rel hall name

/-- **The text that scripts write for a document is read as a document that is alike.** -/
theorem rereads {j : Json} (hnames : ∀ members, Part (.object members) j → (members.map Prod.fst).Nodup)
    (hnumbers : ∀ n, Part (.number n) j → n.Readable) : ∀ {depth : Nat}, j.nesting ≤ depth → Rereads depth j := by
  induction j using Json.induction with
  | null => exact fun _ _ => ⟨.null, by rw [scriptText]; exact reads_null _, .null⟩
  | bool b =>
    intro depth _ indent
    refine ⟨.bool b, ?_, .bool b⟩
    rw [scriptText]
    cases b with
    | true => exact reads_true depth
    | false => exact reads_false depth
  | number n =>
    intro depth _ indent
    obtain ⟨hfinite, n', hparse, hsame⟩ := hnumbers n (.refl _)
    refine ⟨.number n', ?_, .number hsame⟩
    rw [scriptText, if_pos hfinite]
    exact reads_number depth hparse
  | string s =>
    intro depth _ indent
    refine ⟨.string s, ?_, .string s⟩
    rw [scriptText]
    exact reads_string depth s
  | array items ih =>
    rintro (_ | depth) hdepth
    · simp at hdepth
    rw [nesting_array] at hdepth
    refine rereads_array fun j hj => ih j hj (fun members hpart => hnames members (.item hj hpart))
      (fun n hpart => hnumbers n (.item hj hpart)) ?_
    exact Nat.le_trans (nesting_le_of_item hj) (Nat.le_of_succ_le_succ hdepth)
  | object members ih =>
    rintro (_ | depth) hdepth
    · simp at hdepth
    rw [nesting_object] at hdepth
    refine rereads_object (hnames members (.refl _)) fun e he => ih e he
      (fun inside hpart => hnames inside (.member he hpart)) (fun n hpart => hnumbers n (.member he hpart)) ?_
    exact Nat.le_trans (nesting_le_of_member he) (Nat.le_of_succ_le_succ hdepth)

end Json

/-! ## 2. There and back -/

namespace Machine

theorem convertsNothing_sealed {m : Machine} (h : m.ConvertsNothing) : m.sealed.ConvertsNothing :=
  ⟨h.object, h.objectEnds, h.array, h.arrayNext⟩

/-- The built-in objects that documents inherit from convert nothing in the first place. -/
theorem initial_convertsNothing : initial.ConvertsNothing := by
  have hbuilt : (finalMachine (Eval.installAll.runOn {})).Settled := Eval.settled_installAll (Eval.answers nestingLimit)
  unfold initial
  exact convertsNothing_sealed hbuilt.converts

end Machine

namespace Session

variable {m : Machine}

/-- **There and back.** A value made of a document has a document again, and the two are alike: the same as maps,
lists, texts, truth values and doubles. -/
theorem toJson_ofJson {j : Json}
    (hnames : ∀ members, Json.Part (.object members) j → (members.map Prod.fst).Nodup) (hnesting : j.nesting < 128)
    (hnumbers : ∀ n, Json.Part (.number n) j → n.Readable) (hm : m.ConvertsNothing) (hbudget : m.Affords j.size) :
    ∃ w m', (do toJson (← ofJson j)) m = .ok w m' ∧ w.Alike j := by
  have hmakes : Eval.Makes (Eval.answers nestingLimit) j := Eval.makes_of_distinct hnames
  obtain ⟨v, m₁, hmake, hgrows, hshows⟩ := hmakes m
  have hbudget₁ : m₁.Affords j.size := by
    rw [hgrows.rest]
    exact ⟨hbudget.steps, hbudget.time⟩
  have hlimit : j.nesting < nestingLimit := Nat.lt_trans hnesting (by decide)
  obtain ⟨m₂, htext, -, -⟩ : ∃ m₂, (Eval.jsonText v .undefined .undefined).runOn m₁ =
      .ok (some (Json.scriptText (Eval.gapOf .undefined) "" j)) m₂ ∧ _ :=
    Eval.run_jsonText (Eval.convertsNothing_of_grows hm hgrows) hshows hlimit hbudget₁ rfl rfl
  obtain ⟨w, hreads, halike⟩ := Json.rereads hnames hnumbers (Nat.le_of_lt_succ hnesting) ""
  refine ⟨w, m₂, ?_, halike⟩
  have hof : ofJson j m = .ok v m₁ := by
    rw [ofJson, ofEval, Eval.runOn, hmake]
  have hto : toJson v m₁ = .ok w m₂ := by
    have hgap : Eval.gapOf .undefined = "" := rfl
    rw [hgap] at htext
    rw [toJson]
    simp only [ofEval, bind, EStateM.bind, htext, hreads.parse]
    rfl
  simp only [bind, EStateM.bind, hof, hto]

/-- A document with names that mean something to scripts. -/
def named : Json :=
  .object [("__proto__", .array [.number (.natural 1), .null]), ("toJSON", .string "length")]

/-- The document comes back from the first machine. -/
theorem toJson_ofJson_named : named.nesting < 128 ∧
    ∃ w m', (do toJson (← ofJson named)) { Machine.initial with limits := {}, steps := 0 } = .ok w m' ∧
      w.Alike named := by
  have hnesting : named.nesting < 128 := by simp [named]
  refine ⟨hnesting, toJson_ofJson ?_ hnesting ?_ Machine.initial_convertsNothing ?_⟩
  · intro members h
    cases h with
    | refl => decide
    | member he h =>
      simp only [List.mem_cons, List.not_mem_nil, or_false] at he
      obtain rfl | rfl := he
      · cases h with
        | item hj h =>
          simp only [List.mem_cons, List.not_mem_nil, or_false] at hj
          obtain rfl | rfl := hj <;> cases h
      · cases h
  · intro n h
    obtain rfl : n = .natural 1 := by
      cases h with
      | member he h =>
        simp only [List.mem_cons, List.not_mem_nil, or_false] at he
        obtain rfl | rfl := he
        · cases h with
          | item hj h =>
            simp only [List.mem_cons, List.not_mem_nil, or_false] at hj
            obtain rfl | rfl := hj
            · cases h
              rfl
            · cases h
        · cases h
    have htext : Number.text (Json.Numeral.natural 1).toFloat = "1" := by decide +kernel
    refine ⟨by decide +kernel, .natural 1, ?_, by decide +kernel⟩
    rw [htext]
    rfl
  · have hsize : named.size = 5 := by simp [named, Json.size]
    rw [hsize]
    exact ⟨by decide, .inr (by decide)⟩

end Session

end GuestScript
