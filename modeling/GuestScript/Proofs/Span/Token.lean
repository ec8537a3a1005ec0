import GuestScript.Token.Lexer
import Mathlib.Data.String.Basic

/-!
# Where tokens lie

A byte offset into a text is a *boundary* when it falls between two characters. A lexer that is *at* a text has passed
the part of it up to its offset and has the rest of it left, so its offset is a boundary. Every reader goes on from
where it starts, over a part of what is left (`Lexer.Moves`), whether it succeeds or not, and a token lies between the
place where it is looked for and the place that is reached (`Lexer.token_marked`).
-/

namespace GuestScript

open String (utf8Len)

/-! ## 1. Boundaries -/

/-- Whether a byte offset falls between two characters of a text or on one of its ends. -/
def Boundary (source : String) (offset : Nat) : Prop :=
  String.Pos.Raw.IsValid source ⟨offset⟩

section

variable {source : String} {offset start stop : Nat}

theorem boundary_iff :
    Boundary source offset ↔ ∃ before after, source.toList = before ++ after ∧ offset = utf8Len before := by
  refine String.Pos.Raw.isValid_iff_exists_append.trans ⟨?_, ?_⟩
  · rintro ⟨before, after, rfl, h⟩
    refine ⟨before.toList, after.toList, String.toList_append, ?_⟩
    rw [← String.utf8ByteSize_ofList, String.ofList_toList]
    exact congrArg String.Pos.Raw.byteIdx h
  · rintro ⟨before, after, h, rfl⟩
    refine ⟨String.ofList before, String.ofList after, ?_, ?_⟩
    · rw [← String.ofList_append, ← h, String.ofList_toList]
    · rw [← String.utf8ByteSize_ofList]
      rfl

theorem boundary_zero : Boundary source 0 :=
  boundary_iff.2 ⟨[], source.toList, rfl, rfl⟩

theorem Boundary.le_size (h : Boundary source offset) : offset ≤ source.utf8ByteSize := by
  obtain ⟨before, after, hsource, rfl⟩ := boundary_iff.1 h
  rw [← String.ofList_toList (s := source), hsource, String.utf8ByteSize_ofList, String.utf8Len_append]
  exact Nat.le_add_right _ _

/-- **Two boundaries in order cut a text into three.** The one in the middle is what is between them. -/
theorem Boundary.cut (hstart : Boundary source start) (hstop : Boundary source stop) (hle : start ≤ stop) :
    ∃ before text after : String, source = before ++ text ++ after ∧ before.utf8ByteSize = start ∧
      (before ++ text).utf8ByteSize = stop ∧ String.Pos.Raw.extract source ⟨start⟩ ⟨stop⟩ = text := by
  obtain ⟨before, rest, hsource, rfl⟩ := boundary_iff.1 hstart
  obtain ⟨passed, after, hpassed, rfl⟩ := boundary_iff.1 hstop
  -- the shorter of the two beginnings is the beginning of the other one
  have hprefix : ∃ text, passed = before ++ text := by
    rcases List.append_eq_append_iff.1 (hsource.symm.trans hpassed) with ⟨text, h, _⟩ | ⟨text, h, _⟩
    · exact ⟨text, h⟩
    · rw [h, String.utf8Len_append] at hle
      have hnil : text = [] := String.utf8Len_eq_zero.1 (by omega)
      exact ⟨[], by rw [h, hnil, List.append_nil, List.append_nil]⟩
  obtain ⟨text, rfl⟩ := hprefix
  have hcut : source = String.ofList (before ++ text ++ after) := by rw [← hpassed, String.ofList_toList]
  refine ⟨String.ofList before, String.ofList text, String.ofList after, ?_, ?_, ?_, ?_⟩
  · rw [hcut, String.ofList_append, String.ofList_append]
  · exact String.utf8ByteSize_ofList before
  · rw [← String.ofList_append, String.utf8ByteSize_ofList]
  · rw [hcut, String.utf8Len_append]
    exact String.extract_of_valid before text after

end

namespace Lexer

/-! ## 2. Going on -/

/-- Whether a lexer is at a text: what it has passed and what it has left make up the text. -/
def At (source : String) (l : Lexer) : Prop :=
  ∃ before, source.toList = before ++ l.rest ∧ l.offset = utf8Len before

/-- Whether a lexer goes on to another place without starting a token. -/
def Passes (l l' : Lexer) : Prop :=
  ∃ taken, l.rest = taken ++ l'.rest ∧ l'.offset = l.offset + utf8Len taken ∧ l'.tokenStart = l.tokenStart

section

variable {source : String} {l l₁ l₂ l₃ : Lexer}

theorem at_ofText (source : String) : At source (ofText source) :=
  ⟨[], rfl, rfl⟩

theorem At.boundary (h : At source l) : Boundary source l.offset := by
  obtain ⟨before, hsource, hoffset⟩ := h
  exact boundary_iff.2 ⟨before, l.rest, hsource, hoffset⟩

theorem Passes.refl (l : Lexer) : Passes l l :=
  ⟨[], rfl, rfl, rfl⟩

theorem Passes.trans (h : Passes l₁ l₂) (h' : Passes l₂ l₃) : Passes l₁ l₃ := by
  obtain ⟨taken, hrest, hoffset, htoken⟩ := h
  obtain ⟨taken', hrest', hoffset', htoken'⟩ := h'
  refine ⟨taken ++ taken', ?_, ?_, htoken'.trans htoken⟩
  · rw [hrest, hrest', List.append_assoc]
  · rw [hoffset', hoffset, String.utf8Len_append, Nat.add_assoc]

theorem Passes.at (h : Passes l l₁) (hl : At source l) : At source l₁ := by
  obtain ⟨taken, hrest, hoffset, _⟩ := h
  obtain ⟨before, hsource, hbefore⟩ := hl
  refine ⟨before ++ taken, ?_, ?_⟩
  · rw [hsource, hrest, List.append_assoc]
  · rw [hoffset, hbefore, String.utf8Len_append]

theorem Passes.offset_le (h : Passes l l₁) : l.offset ≤ l₁.offset := by
  obtain ⟨taken, _, hoffset, _⟩ := h
  exact hoffset ▸ Nat.le_add_right _ _

theorem Passes.tokenStart_eq (h : Passes l l₁) : l₁.tokenStart = l.tokenStart :=
  h.choose_spec.2.2

/-- Lines and columns do not matter. -/
theorem passes_of_eq (hrest : l₁.rest = l.rest) (hoffset : l₁.offset = l.offset)
    (htoken : l₁.tokenStart = l.tokenStart) : Passes l l₁ :=
  ⟨[], hrest.symm, hoffset, htoken⟩

theorem passes_next (l : Lexer) : Passes l l.next := by
  unfold next
  split
  · exact .refl l
  · rename_i c rest h
    exact ⟨[c], h, by simp, rfl⟩

theorem passes_skipWhile (p : Char → Bool) : ∀ (fuel : Nat) (l : Lexer), Passes l (skipWhile p fuel l)
  | 0, l => .refl l
  | fuel + 1, l => by
    unfold skipWhile
    split
    · split
      · exact (passes_next l).trans (passes_skipWhile p fuel _)
      · exact .refl l
    · exact .refl l

end

/-! ## 3. Readers -/

section

variable {α β : Type}

/-- The place where a reader ends, after a result or a fault. -/
def after (reader : Lex α) (l : Lexer) : Lexer :=
  match reader l with
  | .ok _ l' => l'
  | .error _ l' => l'

/-- Whether a reader goes on from where it starts, whether it succeeds or not. -/
def Moves (reader : Lex α) : Prop :=
  ∀ l, Passes l (after reader l)

variable {x : Lex α}

theorem Moves.passes {l l' : Lexer} {a : α} (h : Moves x) (hr : x l = .ok a l') : Passes l l' := by
  have hl := h l
  simp only [after, hr] at hl
  exact hl

theorem Moves.bind {f : α → Lex β} (hx : Moves x) (hf : ∀ a, Moves (f a)) : Moves (x >>= f) := by
  intro l
  have hl := hx l
  simp only [after, Bind.bind, EStateM.bind] at hl ⊢
  cases hr : x l with
  | ok a l' =>
    rw [hr] at hl
    exact hl.trans (hf a l')
  | error e l' =>
    rw [hr] at hl
    exact hl

theorem moves_pure (a : α) : Moves (pure a) :=
  fun l => .refl l

theorem moves_fail (message : String) : Moves (fail message : Lex α) :=
  fun l => .refl l

theorem moves_ite {c : Prop} [Decidable c] {y : Lex α} (hx : Moves x) (hy : Moves y) :
    Moves (if c then x else y) := by
  split
  · exact hx
  · exact hy

theorem moves_fuelled {reader : Nat → Lex α} (h : ∀ fuel, Moves (reader fuel)) : Moves (fuelled reader) :=
  fun l => h l.fuel l

theorem moves_peek : Moves peek :=
  fun l => .refl l

theorem moves_peekSecond : Moves peekSecond :=
  fun l => .refl l

theorem moves_get : Moves (get : Lex Lexer) :=
  fun l => .refl l

theorem moves_advance : Moves advance :=
  fun l => passes_next l

theorem moves_eat (expected : Char) : Moves (eat expected) := by
  intro l
  unfold after eat
  split
  · rename_i h
    split at h
    · cases h
      exact passes_next l
    · cases h
      exact .refl l
  · rename_i h
    split at h <;> cases h

end

/-! ### Blanks and comments -/

theorem moves_newLine (c : Char) : Moves (newLine c) := by
  intro l
  change Passes l { (if c = '\r' && l.rest.head? = some '\n' then l.next else l) with line := _, column := _ }
  split
  · exact (passes_next l).trans (passes_of_eq rfl rfl rfl)
  · exact passes_of_eq rfl rfl rfl

theorem moves_blockComment : ∀ (fuel : Nat) (broken : Bool), Moves (blockComment fuel broken)
  | 0, _ => moves_fail _
  | fuel + 1, broken => by
    refine moves_advance.bind fun c => ?_
    split
    · exact moves_fail _
    · exact (moves_eat _).bind fun _ => moves_ite (moves_pure _) (moves_blockComment fuel broken)
    · refine moves_ite ?_ (moves_blockComment fuel broken)
      exact (moves_newLine _).bind fun _ => moves_blockComment fuel true

theorem moves_skipLine : Moves skipLine :=
  fun l => passes_skipWhile _ _ l

/-! ### Escapes -/

theorem moves_hexDigit : Moves hexDigit := by
  refine moves_advance.bind fun c => ?_
  split
  · exact moves_pure _
  · exact moves_fail _

theorem moves_bracedDigits : ∀ fuel count value : Nat, Moves (bracedDigits fuel count value)
  | 0, _, _ => moves_fail _
  | fuel + 1, count, value => by
    refine moves_advance.bind fun c => ?_
    split
    · exact moves_fail _
    · refine moves_ite (moves_pure _) ?_
      split
      · exact moves_fail _
      · exact moves_ite (moves_fail _) (moves_bracedDigits fuel _ _)

theorem moves_codePoint : Moves codePoint :=
  (moves_eat _).bind fun _ => moves_ite (moves_fuelled fun fuel => moves_bracedDigits fuel 0 0) <|
    moves_hexDigit.bind fun _ => moves_hexDigit.bind fun _ => moves_hexDigit.bind fun _ =>
      moves_hexDigit.bind fun _ => moves_pure _

theorem moves_unicodeEscape : Moves unicodeEscape := by
  refine moves_codePoint.bind fun code l => ?_
  unfold after
  dsimp only
  generalize (if 0xD800 ≤ code ∧ code < 0xDC00 then lowSurrogate? l.rest else none) = low
  cases low with
  | none => exact .refl l
  | some low =>
    exact (passes_next l).trans <| (passes_next _).trans <| (passes_next _).trans <| (passes_next _).trans <|
      (passes_next _).trans (passes_next _)

theorem moves_octalEscape (first : Char) : Moves (octalEscape first) := by
  refine moves_peek.bind fun c => ?_
  dsimp only
  split
  · exact moves_pure _
  · refine moves_advance.bind fun _ => moves_ite (moves_peek.bind fun _ => ?_) (moves_pure _)
    split
    · exact moves_pure _
    · exact moves_advance.bind fun _ => moves_pure _

theorem moves_escape : Moves escape := by
  refine moves_advance.bind fun c => ?_
  split
  · exact moves_fail _
  · split
    case h_7 =>
      refine moves_advance.bind fun _ => moves_advance.bind fun _ => ?_
      dsimp only
      split
      · exact moves_pure _
      · exact moves_fail _
    case h_8 => exact moves_unicodeEscape
    case h_9 =>
      refine moves_ite ?_ <| moves_ite (moves_fail _) <|
        moves_ite ((moves_newLine _).bind fun _ => moves_pure _) (moves_pure _)
      exact moves_peek.bind fun _ => moves_ite (moves_pure _) (moves_octalEscape _)
    all_goals exact moves_pure _

/-! ### Strings and templates -/

theorem moves_stringChars (quote : Char) : ∀ (fuel : Nat) (acc : List Char), Moves (stringChars quote fuel acc)
  | 0, _ => moves_fail _
  | fuel + 1, acc => by
    have ih := moves_stringChars quote fuel
    refine moves_advance.bind fun c => ?_
    split
    · exact moves_fail _
    · refine moves_ite (moves_pure _) <| moves_ite (moves_fail _) <| moves_ite ?_ (ih _)
      exact moves_escape.bind fun _ => ih _

/-- A fault in an escape of a template leaves the lexer where it was seen. -/
theorem moves_tryEscape : Moves tryEscape := by
  intro l
  have hl := moves_escape l
  unfold after at hl ⊢
  unfold tryEscape
  cases hr : escape l with
  | ok cs l' =>
    rw [hr] at hl
    exact hl
  | error e l' =>
    rw [hr] at hl
    exact hl

theorem moves_templateChars : ∀ (fuel : Nat) (cooked : Option (List Char)) (raw : List Char),
    Moves (templateChars fuel cooked raw)
  | 0, _, _ => moves_fail _
  | fuel + 1, cooked, raw => by
    have ih := moves_templateChars fuel
    refine moves_advance.bind fun c => ?_
    split
    · exact moves_fail _
    · exact moves_pure _
    · exact moves_tryEscape.bind fun _ => ih _ _
    · refine moves_peek.bind fun _ => moves_ite (moves_advance.bind fun _ => moves_pure _) ?_
      exact moves_ite ((moves_newLine _).bind fun _ => ih _ _) (ih _ _)

theorem moves_templatePiece (last other : TemplatePlace) : Moves (templatePiece last other) :=
  (moves_fuelled fun fuel => moves_templateChars fuel _ _).bind fun _ => moves_pure _

/-! ### Numbers and words -/

theorem moves_decimalDigits : ∀ (fuel : Nat) (acc : List Char) (afterDigit : Bool),
    Moves (decimalDigits fuel acc afterDigit)
  | 0, _, _ => moves_pure _
  | fuel + 1, acc, afterDigit => by
    have ih := moves_decimalDigits fuel
    refine moves_peek.bind fun c => ?_
    split
    · exact moves_pure _
    · refine moves_ite (moves_advance.bind fun _ => ih _ _) (moves_peekSecond.bind fun _ => ?_)
      exact moves_ite (moves_advance.bind fun _ => ih _ _) (moves_pure _)

theorem moves_moreDigits (acc : List Char) : Moves (moreDigits acc) :=
  moves_fuelled fun fuel => moves_decimalDigits fuel _ _

theorem moves_exponentPart (acc : List Char) : Moves (exponentPart acc) := by
  refine moves_peek.bind fun c => ?_
  have hdigits : ∀ acc : List Char, Moves (do
      let digits ← moreDigits acc
      if digits.length = acc.length then fail "Invalid number" else pure digits) := fun acc =>
    (moves_moreDigits acc).bind fun _ => moves_ite (moves_fail _) (moves_pure _)
  split
  · refine moves_ite (moves_advance.bind fun _ => moves_peek.bind fun s => ?_) (moves_pure _)
    split
    · exact moves_ite (moves_advance.bind fun _ => hdigits _) (hdigits _)
    · exact hdigits _
  · exact moves_pure _

theorem moves_checkAfterNumber (digitsToo : Bool) : Moves (checkAfterNumber digitsToo) := by
  refine moves_peek.bind fun c => ?_
  split
  · exact moves_pure _
  · exact moves_ite (moves_fail _) (moves_ite (moves_fail _) (moves_pure _))

theorem moves_decimalToken (acc : List Char) : Moves (decimalToken acc) := by
  refine (moves_checkAfterNumber _).bind fun _ => ?_
  split
  · exact moves_pure _
  · exact moves_fail _

theorem moves_radixDigits (radix : Nat) : ∀ (fuel : Nat) (value : Float) (any afterDigit : Bool),
    Moves (radixDigits radix fuel value any afterDigit)
  | 0, _, _, _ => moves_pure _
  | fuel + 1, value, any, afterDigit => by
    have ih := moves_radixDigits radix fuel
    refine moves_peek.bind fun c => ?_
    split
    · exact moves_pure _
    · split
      · exact moves_advance.bind fun _ => ih _ _ _
      · refine moves_peekSecond.bind fun _ => ?_
        exact moves_ite (moves_advance.bind fun _ => ih _ _ _) (moves_pure _)

theorem moves_radixNumber (radix : Nat) : Moves (radixNumber radix) :=
  (moves_fuelled fun fuel => moves_radixDigits radix fuel _ _ _).bind fun _ =>
    moves_ite ((moves_checkAfterNumber _).bind fun _ => moves_pure _) (moves_fail _)

theorem moves_plainDigits : ∀ (fuel : Nat) (acc : List Char), Moves (plainDigits fuel acc)
  | 0, _ => moves_pure _
  | fuel + 1, acc => by
    refine moves_peek.bind fun c => ?_
    split
    · exact moves_ite (moves_advance.bind fun _ => moves_plainDigits fuel _) (moves_pure _)
    · exact moves_pure _

theorem moves_zeroNumber : Moves zeroNumber := by
  refine (moves_fuelled fun fuel => moves_plainDigits fuel _).bind fun acc => ?_
  have hrest : ∀ acc : List Char, Moves (do decimalToken (← exponentPart acc)) := fun acc =>
    (moves_exponentPart acc).bind fun _ => moves_decimalToken _
  refine moves_ite ((moves_checkAfterNumber _).bind fun _ => moves_pure _) (moves_peek.bind fun _ => ?_)
  exact moves_ite (moves_advance.bind fun _ => (moves_moreDigits _).bind fun _ => hrest _) (hrest _)

theorem moves_decimalNumber (first : Char) : Moves (decimalNumber first) := by
  have hrest : ∀ acc : List Char, Moves (do decimalToken (← exponentPart (← moreDigits acc))) := fun acc =>
    (moves_moreDigits acc).bind fun _ => (moves_exponentPart _).bind fun _ => moves_decimalToken _
  refine moves_ite (hrest _) ((moves_moreDigits _).bind fun acc => moves_peek.bind fun _ => ?_)
  exact moves_ite (moves_advance.bind fun _ => hrest _) (hrest _)

theorem moves_number (first : Char) : Moves (number first) := by
  refine moves_ite (moves_peek.bind fun c => ?_) (moves_decimalNumber _)
  split
  · exact moves_decimalNumber _
  · dsimp only
    split
    · exact moves_advance.bind fun _ => moves_radixNumber _
    · exact moves_ite moves_zeroNumber (moves_decimalNumber _)

theorem moves_nameEscape (isFirst : Bool) : Moves (nameEscape isFirst) :=
  (moves_eat _).bind fun _ => moves_ite (moves_codePoint.bind fun _ => moves_ite (moves_pure _) (moves_fail _))
    (moves_fail _)

theorem moves_nameChars : ∀ (fuel : Nat) (c : Char) (acc : List Char) (escaped : Bool),
    Moves (nameChars fuel c acc escaped)
  | 0, _, _, _ => moves_pure _
  | fuel + 1, c, acc, escaped => by
    have ih := moves_nameChars fuel
    refine moves_ite ((moves_nameEscape _).bind fun _ => (moves_pure _).bind fun _ => moves_peek.bind fun n => ?_)
      ((moves_pure _).bind fun _ => moves_peek.bind fun n => ?_)
    all_goals
      split
      · exact moves_ite (moves_advance.bind fun _ => ih _ _ _) (moves_pure _)
      · exact moves_pure _

theorem moves_word (first : Char) : Moves (word first) := by
  refine (moves_fuelled fun fuel => moves_nameChars _ _ _ _).bind fun name => ?_
  refine moves_ite (moves_ite (moves_fail _) (moves_pure _)) <| moves_ite (moves_pure _) <|
    moves_ite (moves_pure _) <| moves_ite (moves_pure _) ?_
  split <;> exact moves_pure _

/-! ### Regular expressions and punctuators -/

theorem moves_regexChars : ∀ (fuel : Nat) (inClass : Bool) (acc : List Char), Moves (regexChars fuel inClass acc)
  | 0, _, _ => moves_fail _
  | fuel + 1, inClass, acc => by
    have ih := moves_regexChars fuel
    refine moves_advance.bind fun c => ?_
    split
    · exact moves_fail _
    · refine moves_ite (moves_fail _) <| moves_ite (moves_pure _) <| moves_ite (moves_advance.bind fun d => ?_) <|
        moves_ite (ih _ _) <| moves_ite (ih _ _) (ih _ _)
      split
      · exact moves_ite (moves_fail _) (ih _ _)
      · exact moves_fail _

theorem moves_regexFlags : ∀ (fuel : Nat) (acc : List Char), Moves (regexFlags fuel acc)
  | 0, _ => moves_pure _
  | fuel + 1, acc => by
    refine moves_peek.bind fun c => ?_
    split
    · exact moves_pure _
    · refine moves_ite (moves_ite ?_ (moves_fail _)) (moves_pure _)
      exact moves_advance.bind fun _ => moves_regexFlags fuel _

theorem moves_regex (taken : String) : Moves (regex taken) :=
  (moves_fuelled fun fuel => moves_regexChars fuel _ _).bind fun _ =>
    (moves_fuelled fun fuel => moves_regexFlags fuel _).bind fun _ => moves_pure _

theorem moves_withAssign (plain assigned : Punctuator) : Moves (withAssign plain assigned) :=
  (moves_eat _).bind fun _ => moves_ite (moves_pure _) (moves_pure _)

theorem moves_punctuator (first : Char) : Moves (punctuator first) := by
  have hjust : ∀ mark, Moves (pure (Token.punctuator mark)) := fun _ => moves_pure _
  fun_cases punctuator first
  case case12 =>
    refine moves_peek.bind fun _ => moves_peekSecond.bind fun _ => moves_ite ?_ (hjust _)
    exact moves_advance.bind fun _ => moves_advance.bind fun _ => hjust _
  case case13 =>
    refine (moves_eat _).bind fun _ => moves_ite (moves_withAssign _ _) ?_
    exact moves_peek.bind fun _ => moves_peekSecond.bind fun _ =>
      moves_ite (moves_advance.bind fun _ => hjust _) (hjust _)
  case case14 => exact (moves_eat _).bind fun _ => moves_ite (moves_withAssign _ _) (moves_withAssign _ _)
  case case15 =>
    refine (moves_eat _).bind fun _ => moves_ite ?_ (moves_withAssign _ _)
    exact (moves_eat _).bind fun _ => moves_ite (moves_withAssign _ _) (moves_withAssign _ _)
  case case16 =>
    refine (moves_eat _).bind fun _ => moves_ite (hjust _) ?_
    exact (moves_eat _).bind fun _ => moves_ite (moves_withAssign _ _) (hjust _)
  case case17 => exact (moves_eat _).bind fun _ => moves_ite (moves_withAssign _ _) (hjust _)
  case case18 | case19 => exact (moves_eat _).bind fun _ => moves_ite (hjust _) (moves_withAssign _ _)
  case case20 | case22 | case23 =>
    exact (moves_eat _).bind fun _ => moves_ite (moves_withAssign _ _) (moves_withAssign _ _)
  case case21 | case24 | case25 => exact moves_withAssign _ _
  case case26 => exact fun l => .refl l
  all_goals exact hjust _

/-! ## 4. Tokens -/

/-- Whether the token that a lexer is in lies between an offset and the place reached. -/
structure Marked (source : String) (lo : Nat) (l : Lexer) : Prop where
  at_source : At source l
  boundary : Boundary source l.tokenStart
  lo_le : lo ≤ l.tokenStart
  le_offset : l.tokenStart ≤ l.offset

section

variable {source : String} {lo : Nat} {l l' : Lexer}

theorem Marked.passes (h : Marked source lo l) (hpasses : Passes l l') : Marked source lo l' := by
  have htoken := hpasses.tokenStart_eq
  refine ⟨hpasses.at h.at_source, htoken ▸ h.boundary, htoken ▸ h.lo_le, ?_⟩
  exact htoken ▸ Nat.le_trans h.le_offset hpasses.offset_le

theorem moves_tokenFrom (c : Char) : Moves (tokenFrom c) := by
  refine moves_advance.bind fun _ => moves_ite ?_ <| moves_ite (moves_templatePiece _ _) <|
    moves_ite (moves_number _) ?_
  · exact (moves_fuelled fun fuel => moves_stringChars _ _ _).bind fun _ => moves_pure _
  · exact moves_peek.bind fun _ => moves_ite (moves_number _) <|
      moves_ite (moves_word _) (moves_punctuator _)

/-- Whether a reader keeps the token that the lexer is in where it is. -/
def Marks {α : Type} (source : String) (lo : Nat) (x : Lex α) : Prop :=
  ∀ l a l', Marked source lo l → x l = .ok a l' → Marked source lo l'

section

variable {α β : Type} {x : Lex α}

theorem Moves.marks (h : Moves x) : Marks source lo x :=
  fun _ _ _ hl hr => hl.passes (h.passes hr)

theorem ok_of_bind {f : α → Lex β} {b : β} (h : (x >>= f) l = .ok b l') :
    ∃ a l₁, x l = .ok a l₁ ∧ f a l₁ = .ok b l' := by
  simp only [Bind.bind, EStateM.bind] at h
  cases hr : x l with
  | ok a l₁ =>
    rw [hr] at h
    exact ⟨a, l₁, rfl, h⟩
  | error e l₁ =>
    rw [hr] at h
    cases h

theorem Moves.then {f : α → Lex β} (hx : Moves x) (hf : ∀ a, Marks source lo (f a)) : Marks source lo (x >>= f) := by
  intro l b l' hl h
  obtain ⟨a, l₁, ha, hb⟩ := ok_of_bind h
  exact hf a l₁ b l' (hl.passes (hx.passes ha)) hb

theorem marks_ite {c : Prop} [Decidable c] {y : Lex α} (hx : Marks source lo x) (hy : Marks source lo y) :
    Marks source lo (if c then x else y) := by
  split
  · exact hx
  · exact hy

end

/-- A token starts behind the blanks before it. -/
theorem startToken_marked (hl : At source l) (hlo : lo ≤ l.offset) {u : Unit} (h : startToken l = .ok u l') :
    Marked source lo l' := by
  have hpasses := passes_skipWhile isBlank l.fuel l
  cases h
  exact ⟨hpasses.at hl, (hpasses.at hl).boundary, Nat.le_trans hlo hpasses.offset_le, Nat.le_refl _⟩

/-- **A token lies between the place where it is looked for and the place reached**, whatever blanks and comments
stand before it. -/
theorem tokenLoop_marked : ∀ (fuel : Nat) {l l' : Lexer} {t : Token}, At source l → lo ≤ l.offset →
    tokenLoop (fuel + 1) l = .ok t l' → Marked source lo l'
  | fuel, l, l', t, hl, hlo, h => by
    obtain ⟨_, l₁, hstart, hrest⟩ := ok_of_bind h
    -- behind a comment the search starts anew, or ends where it is
    have hagain : Marks source lo (tokenLoop fuel) := by
      cases fuel with
      | zero => exact (moves_pure _).marks
      | succ fuel =>
        exact fun _ _ _ hl h => tokenLoop_marked fuel hl.at_source (Nat.le_trans hl.lo_le hl.le_offset) h
    refine (moves_peekSecond.then fun second => moves_peek.then fun c => ?_) l₁ t l'
      (startToken_marked hl hlo hstart) hrest
    split
    · exact (moves_pure _).marks
    · refine marks_ite ?_ <| marks_ite (moves_skipLine.then fun _ => hagain) <| marks_ite ?_ ?_
      · exact moves_advance.then fun _ => (moves_newLine _).then fun _ => (moves_pure _).marks
      · refine moves_advance.then fun _ => moves_advance.then fun _ => ?_
        exact (moves_fuelled fun fuel => moves_blockComment fuel false).then fun _ =>
          marks_ite (moves_pure _).marks hagain
      · refine moves_get.then fun _ => marks_ite (moves_skipLine.then fun _ => hagain) ?_
        exact (moves_tokenFrom _).marks

theorem token_marked {t : Token} (hl : At source l) (hlo : lo ≤ l.offset) (h : token l = .ok t l') :
    Marked source lo l' :=
  tokenLoop_marked _ hl hlo h

end

end Lexer

end GuestScript
