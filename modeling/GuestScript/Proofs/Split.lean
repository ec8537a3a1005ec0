import GuestScript.Proofs.Joining
import GuestScript.Proofs.Json.Writing
import GuestScript.Proofs.Matching

/-!
# Cutting, splitting, joining and replacing

Splitting and replacing cut a text between its units, and read every part back as characters. `cut_units`: where a
text that is not empty is found, no character is cut in two. So the pieces between the places where a separator is
found are texts that make the whole text again when the separator is put between them.

Joining the pieces and replacing what is between them both come to `replaced`, whatever the places are.

Text of one-byte characters is measured and cut in its bytes, other text in its units. `slices_agree` says that this
makes no difference: where both ways are open they give the same length and the same piece, for positions in and out of
range and in any order; and pieces between positions where no character is cut in two (`UnitBoundary`) fit together.
-/

namespace GuestScript

variable {sep : String}

namespace Text

/-! ## 1. Units of characters -/

theorem isHigh_iff (u : UInt16) : isHigh u = true ↔ 0xD800 ≤ u.toNat ∧ u.toNat < 0xDC00 := by
  simp [isHigh, UInt16.le_iff_toNat_le, UInt16.lt_iff_toNat_lt]

theorem isLow_iff (u : UInt16) : isLow u = true ↔ 0xDC00 ≤ u.toNat ∧ u.toNat < 0xE000 := by
  simp [isLow, UInt16.le_iff_toNat_le, UInt16.lt_iff_toNat_lt]

/-- A character has one unit that is no half of a pair, or both halves of one. -/
theorem charUnits_cases (c : Char) :
    (∃ u, charUnits c = [u] ∧ isHigh u = false ∧ isLow u = false ∧ unitChar u = c) ∨
      ∃ u v, charUnits c = [u, v] ∧ isHigh u = true ∧ isLow u = false ∧ isLow v = true ∧
        pairChar u v = c := by
  have hvalid : c.toNat < 0xD800 ∨ 0xDFFF < c.toNat ∧ c.toNat < 0x110000 := c.valid
  unfold charUnits
  split
  case isTrue hsmall =>
    have hu : c.toNat.toUInt16.toNat = c.toNat := by simp; omega
    have hhigh : isHigh c.toNat.toUInt16 = false := Bool.eq_false_iff.mpr fun h => by
      have := (isHigh_iff _).mp h
      omega
    have hlow : isLow c.toNat.toUInt16 = false := Bool.eq_false_iff.mpr fun h => by
      have := (isLow_iff _).mp h
      omega
    exact .inl ⟨_, rfl, hhigh, hlow, by simp [unitChar, hhigh, hlow, hu]⟩
  case isFalse hlarge =>
    have hu : (0xD800 + (c.toNat - 0x10000) / 0x400).toUInt16.toNat = 0xD800 + (c.toNat - 0x10000) / 0x400 := by
      simp; omega
    have hv : (0xDC00 + (c.toNat - 0x10000) % 0x400).toUInt16.toNat = 0xDC00 + (c.toNat - 0x10000) % 0x400 := by
      simp; omega
    refine .inr ⟨_, _, rfl, (isHigh_iff _).mpr (by omega), Bool.eq_false_iff.mpr fun h => ?_,
      (isLow_iff _).mpr (by omega), ?_⟩
    · have := (isLow_iff _).mp h
      omega
    · have hpoint : 0x10000 + (0xD800 + (c.toNat - 0x10000) / 0x400 - 0xD800) * 0x400 +
          (0xDC00 + (c.toNat - 0x10000) % 0x400 - 0xDC00) = c.toNat := by omega
      rw [pairChar, hu, hv, hpoint, Char.ofNat_toNat]

theorem decode_charUnits (c : Char) (us : List UInt16) : decode (charUnits c ++ us) = c :: decode us := by
  obtain ⟨u, hc, hhigh, hlow, hu⟩ | ⟨u, v, hc, hu, -, hv, hpair⟩ := charUnits_cases c
  · rw [hc]
    cases us <;> simp [decode, hhigh, hu]
  · simp [hc, decode, hu, hv, hpair]

theorem decode_flatMap (cs : List Char) : decode (cs.flatMap charUnits) = cs := by
  induction cs with
  | nil => rfl
  | cons c cs ih => rw [List.flatMap_cons, decode_charUnits, ih]

/-- Units start with those of one text only. -/
theorem units_prefix {cs ds : List Char} {b : List UInt16} (h : cs.flatMap charUnits = ds.flatMap charUnits ++ b) :
    ∃ bs, b = bs.flatMap charUnits ∧ cs = ds ++ bs := by
  induction ds generalizing cs with
  | nil => exact ⟨cs, by simpa using h.symm, rfl⟩
  | cons d ds ih =>
    cases cs with
    | nil =>
      have hdecoded := congrArg decode h
      simp [List.flatMap_cons, List.append_assoc, decode_charUnits, decode] at hdecoded
    | cons c cs =>
      rw [List.flatMap_cons, List.flatMap_cons, List.append_assoc] at h
      have hdecoded := congrArg decode h
      rw [decode_charUnits, decode_charUnits] at hdecoded
      obtain rfl := (List.cons.inj hdecoded).1
      obtain ⟨bs, hb, rfl⟩ := ih (List.append_cancel_left h)
      exact ⟨bs, hb, rfl⟩

/-- **No character is cut where a text is found.** -/
theorem cut_units {cs ds : List Char} (hne : ds ≠ []) {a b : List UInt16}
    (h : cs.flatMap charUnits = a ++ (ds.flatMap charUnits ++ b)) :
    ∃ as bs, a = as.flatMap charUnits ∧ b = bs.flatMap charUnits ∧ cs = as ++ (ds ++ bs) := by
  obtain ⟨d, ds, rfl⟩ := List.exists_cons_of_ne_nil hne
  induction cs generalizing a with
  | nil =>
    obtain ⟨u, hd, -⟩ | ⟨u, v, hd, -⟩ := charUnits_cases d <;> simp [hd] at h
  | cons c cs ih =>
    have hwhole : a = [] → ∃ as bs, a = as.flatMap charUnits ∧ b = bs.flatMap charUnits ∧
        c :: cs = as ++ (d :: ds ++ bs) := by
      rintro rfl
      obtain ⟨bs, hb, hcs⟩ := units_prefix h
      exact ⟨[], bs, rfl, hb, hcs⟩
    have hmore {a' : List UInt16} (ha : a = charUnits c ++ a') : ∃ as bs, a = as.flatMap charUnits ∧
        b = bs.flatMap charUnits ∧ c :: cs = as ++ (d :: ds ++ bs) := by
      rw [ha, List.flatMap_cons, List.append_assoc] at h
      obtain ⟨as, bs, rfl, hb, rfl⟩ := ih (List.append_cancel_left h)
      exact ⟨c :: as, bs, by rw [ha, List.flatMap_cons], hb, rfl⟩
    obtain ⟨u, hc, -⟩ | ⟨u, v, hc, -, -, hv, -⟩ := charUnits_cases c
    · rcases a with - | ⟨x, a⟩
      · exact hwhole rfl
      · obtain ⟨rfl, -⟩ : u = x ∧ _ := by simpa [hc] using h
        exact hmore (by rw [hc]; rfl)
    · rcases a with - | ⟨x, - | ⟨y, a⟩⟩
      · exact hwhole rfl
      · -- The text would start with the second half of a pair.
        exfalso
        obtain ⟨w, hd, -, hw, -⟩ | ⟨w, z, hd, -, hw, -⟩ := charUnits_cases d
        · obtain ⟨-, rfl, -⟩ : u = x ∧ v = w ∧ _ := by simpa [hc, hd] using h
          simp [hw] at hv
        · obtain ⟨-, rfl, -⟩ : u = x ∧ v = w ∧ _ := by simpa [hc, hd] using h
          simp [hw] at hv
      · obtain ⟨rfl, rfl, -⟩ : u = x ∧ v = y ∧ _ := by simpa [hc] using h
        exact hmore (by rw [hc]; rfl)

/-! ## 2. Places -/

/-- Places where a text is found, from one place on and each after the end of the one before. -/
def FoundAt (us needle : Array UInt16) : Nat → List Nat → Prop
  | _, [] => True
  | start, i :: rest => start ≤ i ∧ us.extract i (i + needle.size) = needle ∧ FoundAt us needle (i + needle.size) rest

variable {us needle : Array UInt16}

theorem searchUp_sound : ∀ {count start i : Nat}, searchUp us needle count start = some i →
    start ≤ i ∧ us.extract i (i + needle.size) = needle
  | 0, _, _, h => by cases h
  | count + 1, start, i, h => by
    rw [searchUp] at h
    split at h
    case isTrue hfound =>
      cases h
      exact ⟨Nat.le_refl _, eq_of_beq hfound⟩
    case isFalse =>
      have ⟨hle, hfound⟩ := searchUp_sound h
      exact ⟨by omega, hfound⟩

theorem foundAt_occurrences (hne : needle ≠ #[]) : ∀ fuel start : Nat,
    FoundAt us needle start (occurrences us needle true fuel start)
  | 0, _ => trivial
  | fuel + 1, start => by
    have hsize : 0 < needle.size := Array.size_pos_iff.mpr hne
    rw [occurrences]
    split
    · trivial
    · rw [indexOfUnits?, if_neg (by simpa using hne), if_neg ‹_›]
      split
      · trivial
      · rename_i i hi
        rw [if_pos rfl, Nat.max_eq_left hsize]
        have ⟨hle, hfound⟩ := searchUp_sound hi
        exact ⟨hle, hfound, foundAt_occurrences hne fuel _⟩

/-! ## 3. Texts between places -/

/-- The texts before, between and after some places where parts of `size` units are left out. -/
def pieces (us : Array UInt16) (size : Nat) : Nat → List Nat → List String
  | start, [] => [sliceUnits us start us.size]
  | start, i :: rest => sliceUnits us start i :: pieces us size (i + size) rest

/-- A text with another one in place of these parts, after what was put together before. -/
def replaced (us : Array UInt16) (size : Nat) (t : String) : Nat → List Nat → String → String
  | start, [], acc => acc ++ sliceUnits us start us.size
  | start, i :: rest, acc => replaced us size t (i + size) rest (acc ++ sliceUnits us start i ++ t)

theorem units_ne (hsep : sep ≠ "") : units sep ≠ #[] := by
  intro h
  have hlist := congrArg Array.toList h
  rw [toList_units] at hlist
  cases hcs : sep.toList with
  | nil => exact hsep (by simpa using hcs)
  | cons c cs =>
    rw [hcs] at hlist
    obtain ⟨u, hc, -⟩ | ⟨u, v, hc, -⟩ := charUnits_cases c <;> simp [hc] at hlist

/-- Putting a text where it was found makes the same text. -/
theorem replaced_same {sep : String} (hne : sep ≠ "") :
    ∀ {is : List Nat} {start : Nat} {cs : List Char} (acc : String), FoundAt us (units sep) start is →
      us.toList.drop start = cs.flatMap charUnits →
        replaced us (units sep).size sep start is acc = acc ++ String.ofList cs
  | [], start, cs, acc, _, hcs => by
    have hrest : (us.extract start us.size).toList = us.toList.drop start := by simp
    rw [replaced, sliceUnits, ofUnits, hrest, hcs, decode_flatMap]
  | i :: rest, start, cs, acc, ⟨hle, hfound, hrest⟩, hcs => by
    have hneedle : (us.toList.drop i).take (units sep).size = sep.toList.flatMap charUnits := by
      rw [← toList_units, ← congrArg Array.toList hfound]
      simp
    have hbefore : (us.extract start i).toList = (us.toList.drop start).take (i - start) := by
      simp
    have hparts : cs.flatMap charUnits = (us.extract start i).toList ++
        (sep.toList.flatMap charUnits ++ us.toList.drop (i + (units sep).size)) := by
      rw [← hneedle, ← List.drop_drop, List.take_append_drop, hbefore, ← hcs]
      conv_lhs => rw [← List.take_append_drop (i - start) (us.toList.drop start)]
      rw [List.drop_drop, Nat.add_sub_cancel' hle]
    obtain ⟨as, bs, has, hbs, rfl⟩ := cut_units (by simpa using hne) hparts
    rw [replaced, replaced_same hne _ hrest hbs, sliceUnits, ofUnits, has, decode_flatMap]
    simp [String.ofList_append, String.append_assoc]

/-- The places where a text is found in another one. -/
def places (s sep : String) : List Nat :=
  occurrences (units s) (units sep) true ((units s).size + 1) 0

/-- The texts between separators. -/
def parts (s sep : String) : List String :=
  pieces (units s) (units sep).size 0 (places s sep)

/-- A text with another one in the place of every separator. -/
def spliced (s sep t : String) : String :=
  replaced (units s) (units sep).size t 0 (places s sep) ""

theorem spliced_same (hne : sep ≠ "") (s : String) : spliced s sep sep = s := by
  have hsame := replaced_same hne "" (foundAt_occurrences (units_ne hne) ((units s).size + 1) 0) (toList_units s)
  exact hsame.trans (by simp)

/-! ## 4. Replacement texts -/

/-- A text in which every dollar sign stands twice. -/
def dollarsDoubled (s : String) : String :=
  String.ofList (s.toList.flatMap fun c => if c = '$' then ['$', '$'] else [c])

end Text

/-- A replacement text with doubled dollar signs stands for the text without. -/
theorem Regex.expand_dollarsDoubled (s before after : String) (m : Regex.Match) :
    Regex.expand (Text.dollarsDoubled s) m before after = s := by
  have hfrom : ∀ (cs : List Char) (fuel : Nat),
      (cs.flatMap fun c => if c = '$' then ['$', '$'] else [c]).length ≤ fuel →
        Regex.expandFrom m before after fuel (cs.flatMap fun c => if c = '$' then ['$', '$'] else [c]) = cs := by
    intro cs
    induction cs with
    | nil => intro fuel _; cases fuel <;> rfl
    | cons c cs ih =>
      intro fuel hfuel
      rw [List.flatMap_cons] at hfuel ⊢
      by_cases hc : c = '$'
      · subst hc
        obtain - | fuel := fuel
        · simp at hfuel
        · have h := ih fuel (by simp [-List.length_flatMap] at hfuel; omega)
          simpa [Regex.expandFrom, Regex.expandMark.eq_def] using h
      · obtain - | fuel := fuel
        · simp [hc] at hfuel
        · have h := ih fuel (by simp [hc, -List.length_flatMap] at hfuel; omega)
          simpa [Regex.expandFrom, hc] using h
  rw [Regex.expand, Text.dollarsDoubled, String.toList_ofList, hfrom _ _ (by simp), String.ofList_toList]

/-! ## 5. What the functions do -/

namespace Eval

open Text (pieces replaced places parts spliced)

variable (answers : Answers) {us : Array UInt16} {needle : Array UInt16}

/-- The match of a text that was found at a place. -/
def literalMatch (needle : Array UInt16) (i : Nat) : Regex.Match :=
  { start := i, stop := i + needle.size, groups := #[some (Text.ofUnits needle.toList)], names := #[] }

/-- Splitting gives the pieces, unless there are as many as the limit. -/
theorem splitAt_literal {limit : Nat} {is : List Nat} (hlimit : is.length < limit) :
    splitAt us limit (is.map (literalMatch needle)) =
      ((pieces us needle.size 0 is).map Value.string).toArray := by
  -- the limit is not reached, so the rest of the text is the last piece
  have hfrom : ∀ (is : List Nat) (start : Nat) (acc : Array Value), acc.size + is.length < limit →
      ∃ front last, splitPieces us limit (is.map (literalMatch needle)) start acc = (front, some last) ∧
        front.push (.string (Text.sliceUnits us last us.size)) =
          acc ++ ((pieces us needle.size start is).map Value.string).toArray := by
    intro is
    induction is with
    | nil => exact fun start acc _ => ⟨acc, start, rfl, by simp [pieces]⟩
    | cons i is ih =>
      intro start acc hlt
      rw [List.length_cons] at hlt
      have hpiece : #[Value.string (Text.sliceUnits us start (literalMatch needle i).start)] ++
          (literalMatch needle i).captures.map Value.ofText? = #[Value.string (Text.sliceUnits us start i)] := by
        simp [literalMatch, Regex.Match.captures]
      rw [List.map_cons, splitPieces]
      simp only [hpiece]
      rw [if_neg (by simp; omega)]
      obtain ⟨front, last, hsplit, hfront⟩ := ih (literalMatch needle i).stop _
        (show (acc ++ #[Value.string (Text.sliceUnits us start i)]).size + is.length < limit by simp; omega)
      exact ⟨front, last, hsplit, hfront.trans (by simp [pieces, literalMatch])⟩
  obtain ⟨front, last, hsplit, hfront⟩ := hfrom is 0 #[] (by simpa using hlimit)
  rw [splitAt, hsplit]
  exact hfront.trans (by simp)

/-- Joining pieces comes to `replaced`. -/
theorem run_joinElements (t : String) : ∀ (is : List Nat) (start : Nat) (isFirst : Bool) (acc : String) (m : Machine),
    (joinElements t ((pieces us needle.size start is).map Value.string) isFirst acc).run answers m =
      .ok (replaced us needle.size t start is (if isFirst then acc else acc ++ t)) m
  | [], start, isFirst, acc, m => by
    simp [pieces, replaced, joinElements, Value.isNullish.eq_def, toText, bind, pure, run]
  | i :: is, start, isFirst, acc, m => by
    have hrest := run_joinElements t is (i + needle.size) false
      ((if isFirst then acc else acc ++ t) ++ Text.sliceUnits us start i) m
    simpa [pieces, replaced, joinElements, Value.isNullish.eq_def, toText, bind, pure, run] using hrest

/-- Replacing takes one step for every place, and comes to `replaced`. -/
theorem run_replaceFrom {replacement : Regex.Match → Eval String} {t : String}
    (ht : ∀ match_, replacement match_ = pure t) : ∀ (is : List Nat) (start : Nat) (acc : String) (m : Machine),
    m.Affords is.length →
      (replaceFrom us replacement (is.map (literalMatch needle)) start acc).run answers m =
        .ok (replaced us needle.size t start is acc) (m.advance is.length)
  | [], start, acc, m, _ => by simp [replaceFrom, replaced, pure, run, Machine.advance_zero]
  | i :: is, start, acc, m, hm => by
    rw [List.length_cons, Nat.add_comm] at hm ⊢
    have hcharged : m.charged = .ok () (m.advance 1) := Machine.charged_of_affords (Nat.add_comm 1 _ ▸ hm)
    have hrest := run_replaceFrom ht is (i + needle.size) (acc ++ Text.sliceUnits us start i ++ t) _ hm.advance
    rw [Machine.advance_advance] at hrest
    simpa [replaceFrom, replaced, bind, pure, run, hcharged, ht, literalMatch] using hrest

/-- Split a text, and join the parts with another text between them. -/
def splitAndJoin (s sep t : String) : Eval Value := do
  let parts ← StringMethod.split.run (.string s) #[.string sep]
  ArrayMethod.join.run parts #[.string t]

/-- Joining an array of pieces that is not being joined. -/
theorem run_join {s : String} (t : String) {id : ObjectId} {m : Machine} (hfresh : id ∉ m.joining)
    (helements : (m.objectAt id).elements = some ((parts s sep).map Value.string).toArray) :
    (ArrayMethod.join.run (.object id) #[.string t]).run answers m = .ok (.string (spliced s sep t)) m := by
  have hreceiver : (joinReceiver (.object id) (.string t)).run answers m = .ok (spliced s sep t) m :=
    run_joinReceiver_fresh hfresh helements (run_joinElements answers t (places s sep) 0 true "" _)
  simp [ArrayMethod.run.eq_def, ArrayMethod.access.eq_def, argument, bind, pure, run, hreceiver]

/-- **Splitting a text and joining the parts** puts the joining text in place of the separators. -/
theorem run_splitAndJoin {s : String} (hsep : sep ≠ "") (t : String) {m : Machine}
    (hjoining : ∀ id ∈ m.joining, id.index < m.heap.size) (hpieces : (places s sep).length + 1 < 2 ^ 32 - 1) :
    ∃ m', (splitAndJoin s sep t).run answers m = .ok (.string (spliced s sep t)) m' := by
  have hparts : (splitText s (.string sep) 4294967295).run answers m =
      .ok ((parts s sep).map Value.string).toArray m := by
    have hsplit : splitAt (Text.units s) 4294967295 (Regex.literalMatches (Text.units s) (Text.units sep) true) =
        ((parts s sep).map Value.string).toArray := splitAt_literal (show (places s sep).length < 4294967295 by omega)
    simp [splitText, regexOf?, Value.isUndefined, toText, bind, pure, run, Text.units_ne hsep, hsplit]
  let id : ObjectId := ⟨m.heap.size⟩
  let m₁ : Machine := { m with heap := m.heap.push (.ofElements ((parts s sep).map .string).toArray) }
  have hsplit : (StringMethod.split.run (.string s) #[.string sep]).run answers m = .ok (.object id) m₁ := by
    simp [StringMethod.run.eq_def, StringMethod.transform.eq_def, receiverText, Value.isNullish.eq_def, Value.isUndefined, argument,
      toText, bind, pure, run, hparts]
    rfl
  have hfresh : id ∉ m₁.joining := fun h => Nat.lt_irrefl _ (hjoining id h)
  have helements : (m₁.objectAt id).elements = some _ :=
    congrArg Object.elements (State.objectAt_pushed m.toState (.ofElements _))
  exact ⟨m₁, (run_bind_of_ok hsplit).trans (run_join answers t hfresh helements)⟩

/-- **Replacing every separator** by a text puts it in their place, in one step for each of them. -/
theorem run_replaceAll (s sep t : String) {m : Machine} (hm : m.Affords (places s sep).length) :
    (StringMethod.replaceAll.run (.string s) #[.string sep, .string (Text.dollarsDoubled t)]).run answers m =
      .ok (.string (spliced s sep t)) (m.advance (places s sep).length) := by
  have htext : (replaceText s (.string sep) (.string (Text.dollarsDoubled t)) true).run answers m =
      .ok (spliced s sep t) (m.advance (places s sep).length) := by
    have hmatches : (replacedMatches s (.string sep) true).run answers m =
        .ok ((places s sep).map (literalMatch (Text.units sep))) m := rfl
    have hcallable : (isCallable (.string (Text.dollarsDoubled t))).run answers m = .ok false m := rfl
    refine (run_bind_of_ok hmatches).trans ((run_bind_of_ok hcallable).trans ?_)
    exact run_replaceFrom answers (fun _ => congrArg pure (Regex.expand_dollarsDoubled t _ _ _)) _ 0 "" m hm
  simp [StringMethod.run.eq_def, StringMethod.transform.eq_def, receiverText, Value.isNullish.eq_def, argument, toText, bind, pure, run,
    htext]

end Eval

open Eval Text

/-- **Splitting, joining and replacing agree.** A text that is split at a text and joined with it again is the same
text, and to replace every place where it is found is to split there and join with the replacement. Replacing counts
one step for each place. -/
theorem StringMethod.split_join_replaceAll (s sep t : String) (hsep : sep ≠ "") (answers : Answers) (m : Machine)
    (hjoining : ∀ id ∈ m.joining, id.index < m.heap.size) (hpieces : (places s sep).length + 1 < 2 ^ 32 - 1)
    (hsteps : m.Affords (places s sep).length) :
    (∃ m', (splitAndJoin s sep sep).run answers m = .ok (.string s) m') ∧
      ∃ result m₁ m₂, (splitAndJoin s sep t).run answers m = .ok (.string result) m₁ ∧
        (StringMethod.replaceAll.run (.string s) #[.string sep, .string (dollarsDoubled t)]).run answers m =
          .ok (.string result) m₂ := by
  constructor
  · obtain ⟨m', hjoined⟩ := run_splitAndJoin answers hsep sep hjoining hpieces
    exact ⟨m', hjoined.trans (by rw [Text.spliced_same hsep])⟩
  · obtain ⟨m', hjoined⟩ := run_splitAndJoin answers hsep t hjoining hpieces
    exact ⟨_, _, _, hjoined, run_replaceAll answers s sep t hsteps⟩

/-- A character of two units is between the letters, and the replacement has a mark. -/
theorem StringMethod.split_join_replaceAll_surrogates :
    places "a😀b😀" "😀" = [1, 4] ∧
      (∃ m', (splitAndJoin "a😀b😀" "😀" "😀").run (Eval.answers 0) {} = .ok (.string "a😀b😀") m') ∧
      ∃ result m₁ m₂, (splitAndJoin "a😀b😀" "😀" "$&").run (Eval.answers 0) {} = .ok (.string result) m₁ ∧
        (StringMethod.replaceAll.run (.string "a😀b😀") #[.string "😀", .string (dollarsDoubled "$&")]).run
          (Eval.answers 0) {} = .ok (.string result) m₂ := by
  have hs : units "a😀b😀" = #[0x61, 0xD83D, 0xDE00, 0x62, 0xD83D, 0xDE00] :=
    Array.ext' ((toList_units _).trans (by decide))
  have hsep : units "😀" = #[0xD83D, 0xDE00] := Array.ext' ((toList_units _).trans (by decide))
  have hplaces : places "a😀b😀" "😀" = [1, 4] := by
    rw [places, hs, hsep]
    decide
  exact ⟨hplaces, StringMethod.split_join_replaceAll "a😀b😀" "😀" "$&" (by decide) (Eval.answers 0) {} nofun
    (by rw [hplaces]; decide) ⟨by rw [hplaces]; decide, .inr (by rw [hplaces]; decide)⟩⟩

end GuestScript

namespace GuestScript.Text

variable {cs : List Char} {s : String}

/-! ## 6. Text of one-byte characters -/

theorem utf8Len_ascii (h : ∀ c ∈ cs, c.toNat < 128) : String.utf8Len cs = cs.length := by
  induction cs with
  | nil => rfl
  | cons c cs ih =>
    obtain ⟨hc, hcs⟩ := List.forall_mem_cons.mp h
    have hone : c.utf8Size = 1 := Char.utf8Size_eq_one_iff.mpr (Nat.le_of_lt_succ hc)
    rw [String.utf8Len_cons, ih hcs, hone, List.length_cons]

theorem isAscii_iff (s : String) : isAscii s = true ↔ ∀ c ∈ s.toList, c.toNat < 128 := by
  refine ⟨fun h c hc => Nat.lt_succ_of_le (small_of_isAscii h c hc), fun h => ?_⟩
  rw [isAscii, beq_iff_eq, ← String.utf8Len_toList, utf8Len_ascii h, String.length_toList]

theorem utf8ByteSize_ascii (h : ∀ c ∈ s.toList, c.toNat < 128) : s.utf8ByteSize = s.toList.length := by
  rw [← String.utf8Len_toList, utf8Len_ascii h]

theorem flatMap_ascii (h : ∀ c ∈ cs, c.toNat < 128) : cs.flatMap charUnits = cs.map fun c => c.toNat.toUInt16 := by
  rw [List.map_eq_flatMap]
  exact List.flatMap_congr fun c hc => if_pos (Nat.lt_trans (h c hc) (by decide))

/-! ## 7. Units -/

/-- The number of units of a text is the sum over its characters. -/
theorem length_flatMap_charUnits (cs : List Char) : (cs.flatMap charUnits).length = unitCount cs := by
  have hchar : ∀ c : Char, (charUnits c).length = charSize c := fun c => by
    rw [charUnits, charSize]
    split <;> rfl
  simp only [List.length_flatMap, unitCount, hchar]

theorem size_units (s : String) : (units s).size = unitCount s.toList := by
  rw [← Array.length_toList, toList_units, length_flatMap_charUnits]

theorem sliceUnits_eq (s : String) (start stop : Nat) : sliceUnits (units s) start stop =
    String.ofList (decode (((s.toList.flatMap charUnits).drop start).take (stop - start))) := by
  rw [sliceUnits, ofUnits, Array.toList_extract, List.extract_eq_take_drop, toList_units]

/-- The piece of a text of one-byte characters between two positions, cut in bytes. -/
def sliceBytes (s : String) (start stop : Nat) : String :=
  String.Pos.Raw.extract s ⟨min start s.utf8ByteSize⟩ ⟨min stop s.utf8ByteSize⟩

/-- The cut in bytes leaves out the characters before the start and those from the stop on. -/
theorem sliceBytes_eq (h : ∀ c ∈ s.toList, c.toNat < 128) (start stop : Nat) :
    sliceBytes s start stop = String.ofList ((s.toList.drop start).take (stop - start)) := by
  rw [sliceBytes, utf8ByteSize_ascii h]
  rcases Nat.lt_or_ge (min start s.toList.length) (min stop s.toList.length) with hlt | hge
  · have hstart : min start s.toList.length = start := by omega
    rw [hstart] at hlt ⊢
    -- the text falls into what is before the start, the piece, and what is from the stop on
    have hcut : s.toList = s.toList.take start ++ (s.toList.drop start).take (min stop s.toList.length - start) ++
        (s.toList.drop start).drop (min stop s.toList.length - start) := by
      rw [List.append_assoc, List.take_append_drop, List.take_append_drop]
    have hfront : String.utf8Len (s.toList.take start) = start := by
      rw [utf8Len_ascii fun c hc => h c (List.mem_of_mem_take hc), List.length_take, hstart]
    have hpiece : String.utf8Len ((s.toList.drop start).take (min stop s.toList.length - start)) =
        min stop s.toList.length - start := by
      rw [utf8Len_ascii fun c hc => h c (List.mem_of_mem_drop (List.mem_of_mem_take hc)), List.length_take,
        List.length_drop]
      omega
    have hextract := String.extract_of_valid (s.toList.take start)
      ((s.toList.drop start).take (min stop s.toList.length - start))
      ((s.toList.drop start).drop (min stop s.toList.length - start))
    rw [← hcut, String.ofList_toList, hfront, hpiece, Nat.add_sub_cancel' hlt.le] at hextract
    have hsame : (s.toList.drop start).take (min stop s.toList.length - start) =
        (s.toList.drop start).take (stop - start) := by
      rw [List.take_eq_take_iff, List.length_drop]
      omega
    rw [hextract, hsame]
  · have hempty : (s.toList.drop start).take (stop - start) = [] := by
      rw [List.take_eq_nil_iff, List.drop_eq_nil_iff]
      omega
    rw [hempty, String.Pos.Raw.extract, if_pos hge, String.ofList_nil]

theorem sliceUnits_ascii (h : ∀ c ∈ s.toList, c.toNat < 128) (start stop : Nat) :
    sliceUnits (units s) start stop = String.ofList ((s.toList.drop start).take (stop - start)) := by
  have hpiece : ∀ c ∈ (s.toList.drop start).take (stop - start), c.toNat < 128 := fun c hc =>
    h c (List.mem_of_mem_drop (List.mem_of_mem_take hc))
  rw [sliceUnits_eq, flatMap_ascii h, ← List.map_drop, ← List.map_take, ← flatMap_ascii hpiece, decode_flatMap]

/-- Every text is cut as its units are. -/
theorem slice_eq (s : String) (start stop : Nat) : slice s start stop = sliceUnits (units s) start stop := by
  rw [slice]
  split
  case isTrue h =>
    have hascii := (isAscii_iff s).mp h
    exact (sliceBytes_eq hascii start stop).trans (sliceUnits_ascii hascii start stop).symm
  case isFalse => rfl

/-! ## 8. Boundaries of characters -/

/-- A position in units where no character is cut in two: the end of a first part of the text. -/
def UnitBoundary (s : String) (i : Nat) : Prop :=
  ∃ front back : String, s = front ++ back ∧ (units front).size = i

theorem UnitBoundary.exists_append {i : Nat} (h : UnitBoundary s i) :
    ∃ front back, s.toList = front ++ back ∧ unitCount front = i := by
  obtain ⟨front, back, rfl, rfl⟩ := h
  exact ⟨front.toList, back.toList, String.toList_append, (size_units front).symm⟩

theorem unitCount_eq_zero (h : unitCount cs = 0) : cs = [] := by
  cases cs with
  | nil => rfl
  | cons c cs =>
    have hpos : 0 < charSize c := by
      rw [charSize]
      split <;> decide
    rw [unitCount, List.map_cons, List.sum_cons] at h
    omega

/-- Of two beginnings of a text, the one with no more units is a beginning of the other one. -/
theorem exists_eq_append {front back front' back' : List Char} (h : front ++ back = front' ++ back')
    (hle : unitCount front ≤ unitCount front') : ∃ piece, front' = front ++ piece := by
  rcases List.append_eq_append_iff.mp h with ⟨piece, hpiece, -⟩ | ⟨piece, hpiece, -⟩
  · exact ⟨piece, hpiece⟩
  · rw [hpiece, unitCount_append] at hle
    have hnil : piece = [] := unitCount_eq_zero (by omega)
    exact ⟨[], by rw [hpiece, hnil, List.append_nil, List.append_nil]⟩

/-- The piece between two boundaries is made of the characters between them. -/
theorem slice_between {front piece back : List Char} (h : s.toList = front ++ piece ++ back) :
    slice s (unitCount front) (unitCount (front ++ piece)) = String.ofList piece := by
  have hpiece : unitCount (front ++ piece) - unitCount front = (piece.flatMap charUnits).length := by
    rw [unitCount_append, length_flatMap_charUnits]
    omega
  rw [slice_eq, sliceUnits_eq, h, hpiece, ← length_flatMap_charUnits front, List.append_assoc, List.flatMap_append,
    List.drop_left, List.flatMap_append, List.take_left, decode_flatMap]

/-- **Cutting text.** Text of one-byte characters has the same length and the same pieces in bytes and in units, for all
positions. And in every text the piece between two boundaries is as long as they are apart, and pieces that meet at a
boundary make one piece together. -/
theorem slices_agree (s : String) :
    ((∀ c ∈ s.toList, c.toNat < 128) →
      (s.utf8ByteSize = size s ∧ s.foldl (fun n c => n + charSize c) 0 = size s) ∧
        ∀ start stop, sliceBytes s start stop = slice s start stop ∧
          sliceUnits (units s) start stop = slice s start stop) ∧
      ∀ i j k, i ≤ j → j ≤ k → UnitBoundary s i → UnitBoundary s j → UnitBoundary s k →
        slice s i j ++ slice s j k = slice s i k ∧ size (slice s i j) = j - i ∧ size (slice s j k) = k - j := by
  refine ⟨fun h => ⟨⟨?_, ?_⟩, fun start stop => ⟨?_, (slice_eq s start stop).symm⟩⟩, ?_⟩
  · rw [size, if_pos ((isAscii_iff s).mpr h)]
  · rw [size_eq, String.foldl_eq_foldl_toList, foldl_charSize, Nat.zero_add]
  · rw [slice_eq, sliceBytes_eq h, sliceUnits_ascii h]
  · intro i j k hij hjk hi hj hk
    obtain ⟨front, _, hfront, rfl⟩ := hi.exists_append
    obtain ⟨_, _, hmiddle, rfl⟩ := hj.exists_append
    obtain ⟨_, back, hwhole, rfl⟩ := hk.exists_append
    obtain ⟨left, rfl⟩ := exists_eq_append (hfront.symm.trans hmiddle) hij
    obtain ⟨right, rfl⟩ := exists_eq_append (hmiddle.symm.trans hwhole) hjk
    have hleft : slice s (unitCount front) (unitCount (front ++ left)) = String.ofList left :=
      slice_between hmiddle
    have hright : slice s (unitCount (front ++ left)) (unitCount (front ++ left ++ right)) = String.ofList right :=
      slice_between hwhole
    have hboth : slice s (unitCount front) (unitCount (front ++ left ++ right)) = String.ofList (left ++ right) := by
      rw [List.append_assoc front left right]
      exact slice_between (by rw [hwhole, List.append_assoc front left right])
    rw [hleft, hright, hboth, size_eq, size_eq, String.toList_ofList, String.toList_ofList]
    simp only [unitCount_append, String.ofList_append]
    exact ⟨trivial, by omega, by omega⟩

/-- Crossed positions past the end, and a cut behind a surrogate pair. -/
theorem slices_agree_pair :
    sliceBytes "abc" 9 7 = slice "abc" 9 7 ∧ slice "a😀b" 1 3 ++ slice "a😀b" 3 4 = slice "a😀b" 1 4 ∧
      size (slice "a😀b" 1 3) = 2 := by
  obtain ⟨hascii, -⟩ := slices_agree "abc"
  obtain ⟨-, hcut⟩ := slices_agree "a😀b"
  obtain ⟨hwhole, hsize, -⟩ := hcut 1 3 4 (by decide) (by decide) ⟨"a", "😀b", by decide, by cbv⟩
    ⟨"a😀", "b", by decide, by cbv⟩ ⟨"a😀b", "", by decide, by cbv⟩
  exact ⟨((hascii ((isAscii_iff "abc").mp (by decide))).2 9 7).1, hwhole, hsize⟩

end GuestScript.Text
